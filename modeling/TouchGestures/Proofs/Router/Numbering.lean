import Mathlib.Logic.Equiv.Basic
import TouchGestures.Proofs.Channel.Answer
import TouchGestures.Proofs.Detector.Renumber

namespace TouchGestures

namespace EventIds

def drawn (ids : EventIds) : Nat → List EventId
  | 0 => []
  | count + 1 => ids.fresh.1 :: ids.fresh.2.drawn count

def after (ids : EventIds) : Nat → EventIds
  | 0 => ids
  | count + 1 => ids.fresh.2.after count

theorem drawn_add (ids : EventIds) (first second : Nat) :
    ids.drawn (first + second) = ids.drawn first ++ (ids.after first).drawn second := by
  induction first generalizing ids with
  | zero => simp [drawn, after]
  | succ first ih => simp [Nat.add_right_comm, drawn, after, ih]

theorem after_add (ids : EventIds) (first second : Nat) :
    ids.after (first + second) = (ids.after first).after second := by
  induction first generalizing ids with
  | zero => simp [after]
  | succ first ih => simp [Nat.add_right_comm, after, ih]

@[simp] theorem length_drawn (ids : EventIds) (count : Nat) : (ids.drawn count).length = count := by
  induction count generalizing ids with
  | zero => rfl
  | succ count ih => simp [drawn, ih]

theorem ne_zero_of_mem_drawn {ids : EventIds} {count : Nat} {id : EventId}
    (h : id ∈ ids.drawn count) : id ≠ 0 := by
  induction count generalizing ids with
  | zero => cases h
  | succ count ih =>
    rcases List.mem_cons.mp h with rfl | h
    · exact fresh_ne_zero ids
    · exact ih h

end EventIds

section Synthesize

variable (kind : Touch.Kind) (clock : Clock) (contacts : List Contact) (ids : EventIds)

theorem map_id_synthesizeAll :
    (synthesizeAll kind clock contacts ids).1.map (·.id) = ids.drawn contacts.length := by
  induction contacts generalizing clock ids with
  | nil => rfl
  | cons c rest ih => exact congrArg (ids.fresh.1 :: ·) (ih clock.rest ids.fresh.2)

theorem snd_synthesizeAll :
    (synthesizeAll kind clock contacts ids).2 = ids.after contacts.length := by
  induction contacts generalizing clock ids with
  | nil => rfl
  | cons c rest ih => exact ih clock.rest ids.fresh.2

-- Touches that are made up for the same contacts differ in their numbers alone.
theorem synthesizeAll_renumber {ρ : Renumbering} {ids' : EventIds}
    (h : (ids.drawn contacts.length).map ρ = ids'.drawn contacts.length) :
    (synthesizeAll kind clock contacts ids').1 =
      (synthesizeAll kind clock contacts ids).1.map (·.renumber ρ) := by
  induction contacts generalizing clock ids ids' with
  | nil => rfl
  | cons c rest ih =>
    obtain ⟨hfirst, hrest⟩ := List.cons.inj h
    simp only [synthesizeAll, List.map_cons, ih clock.rest ids.fresh.2 hrest, ← hfirst]
    rfl

end Synthesize

-- Some numbers can be changed for others one by one as long as all of them are different.
theorem exists_renumbering {pairs : List (EventId × EventId)}
    (hfirst : (pairs.map (·.1)).Nodup) (hsecond : (pairs.map (·.2)).Nodup)
    (hzero : ∀ p ∈ pairs, p.1 = 0 ↔ p.2 = 0) :
    ∃ ρ : Renumbering, ∀ p ∈ pairs, ρ p.1 = p.2 := by
  induction pairs with
  | nil => exact ⟨⟨id, Function.injective_id, rfl⟩, by simp⟩
  | cons p rest ih =>
    obtain ⟨hnot, hfirst⟩ := List.nodup_cons.mp hfirst
    obtain ⟨hnot', hsecond⟩ := List.nodup_cons.mp hsecond
    obtain ⟨ρ, hρ⟩ := ih hfirst hsecond fun q hq => hzero q (List.mem_cons_of_mem p hq)
    have hp := hzero p List.mem_cons_self
    have happly : ρ p.1 = 0 ↔ p.1 = 0 := by
      conv_lhs => rw [← ρ.zero]
      exact ρ.apply_eq_iff
    -- What `ρ` makes of `p.1` changes places with `p.2`, and neither is a number of the rest.
    refine ⟨⟨Equiv.swap (ρ p.1) p.2 ∘ ρ, (Equiv.injective _).comp ρ.injective, ?_⟩, fun q hq => ?_⟩
    · rw [Function.comp_apply, ρ.zero]
      by_cases h : p.2 = 0
      · rw [h, happly.mpr (hp.mpr h), Equiv.swap_self]
        rfl
      · exact Equiv.swap_apply_of_ne_of_ne (fun heq => h (hp.mp (happly.mp heq.symm)))
          (Ne.symm h)
    · change Equiv.swap (ρ p.1) p.2 (ρ q.1) = q.2
      rcases List.mem_cons.mp hq with rfl | hq
      · exact Equiv.swap_apply_left _ _
      · rw [hρ q hq]
        refine Equiv.swap_apply_of_ne_of_ne (fun heq => hnot ?_) fun heq => hnot' ?_
        · rw [← hρ q hq, ρ.apply_eq_iff] at heq
          exact List.mem_map.mpr ⟨q, hq, heq⟩
        · exact List.mem_map.mpr ⟨q, hq, heq⟩

-- The numbers that have been used in two runs, the second of which leaves out some of the
-- first. The pairs tell which numbers belong together. The source of the second run lags
-- behind that of the first, which is ahead by the numbers it alone has drawn.
structure Matched (pairs : List (EventId × EventId)) (lead : Nat) (ids ids' : EventIds)
    (numbers numbers' : List EventId) : Prop where
  firsts : (pairs.map (·.1)).Sublist numbers
  seconds : pairs.map (·.2) = numbers'
  zero : ∀ p ∈ pairs, p.1 = 0 ↔ p.2 = 0
  source : ids = ids'.after lead
  known : ∀ id ∈ numbers' ++ ids'.drawn lead, id ∈ numbers
  distinct : (numbers' ++ ids'.drawn lead).Nodup

namespace Matched

variable {pairs : List (EventId × EventId)} {lead : Nat} {ids ids' : EventIds}
  {numbers numbers' : List EventId} {id : EventId}

theorem start (ids : EventIds) : Matched [] 0 ids ids [] [] :=
  ⟨List.Sublist.slnil, rfl, by simp, rfl, by simp [EventIds.drawn], by simp [EventIds.drawn]⟩

theorem nodup (h : Matched pairs lead ids ids' numbers numbers') : numbers'.Nodup :=
  (List.nodup_append.mp h.distinct).1

theorem subset (h : Matched pairs lead ids ids' numbers numbers') (hid : id ∈ numbers') :
    id ∈ numbers :=
  h.known id (List.mem_append_left _ hid)

theorem exists_renumbering (h : Matched pairs lead ids ids' numbers numbers')
    (hdistinct : numbers.Nodup) : ∃ ρ : Renumbering, ∀ p ∈ pairs, ρ p.1 = p.2 :=
  TouchGestures.exists_renumbering (h.firsts.nodup hdistinct) (h.seconds ▸ h.nodup) h.zero

-- Another number of the first run.
theorem first (h : Matched pairs lead ids ids' numbers numbers') (more : List EventId) :
    Matched pairs lead ids ids' (numbers ++ more) numbers' where
  firsts := h.firsts.trans (List.sublist_append_left _ _)
  seconds := h.seconds
  zero := h.zero
  source := h.source
  known := fun id hid => List.mem_append_left _ (h.known id hid)
  distinct := h.distinct

-- A number that both runs get from outside.
theorem both (h : Matched pairs lead ids ids' numbers numbers')
    (hdistinct : (numbers ++ [id]).Nodup) :
    Matched (pairs ++ [(id, id)]) lead ids ids' (numbers ++ [id]) (numbers' ++ [id]) := by
  have hnew : id ∉ numbers' ++ ids'.drawn lead := fun hid =>
    (List.nodup_append.mp hdistinct).2.2 id (h.known id hid) id (List.mem_singleton.mpr rfl) rfl
  have hperm : (numbers' ++ [id] ++ ids'.drawn lead).Perm (id :: (numbers' ++ ids'.drawn lead)) := by
    simp [List.perm_middle]
  refine ⟨?_, by simp [h.seconds], fun p hp => ?_, h.source, fun other hother => ?_,
    hperm.nodup_iff.mpr (List.nodup_cons.mpr ⟨hnew, h.distinct⟩)⟩
  · rw [List.map_append]
    exact h.firsts.append (List.Sublist.refl _)
  · rcases List.mem_append.mp hp with hp | hp
    · exact h.zero p hp
    · cases List.mem_singleton.mp hp
      exact Iff.rfl
  · rcases List.mem_cons.mp (hperm.mem_iff.mp hother) with rfl | hother
    · simp
    · exact List.mem_append_left _ (h.known other hother)

theorem distinct_drawn (h : Matched pairs lead ids ids' numbers numbers') {count : Nat}
    (hdistinct : (numbers ++ ids.drawn count).Nodup) :
    (numbers' ++ ids'.drawn (lead + count)).Nodup ∧
      ∀ id ∈ numbers' ++ ids'.drawn (lead + count), id ∈ numbers ++ ids.drawn count := by
  obtain ⟨-, hdrawn, hdisjoint⟩ := List.nodup_append.mp hdistinct
  rw [EventIds.drawn_add, ← h.source, ← List.append_assoc]
  refine ⟨List.nodup_append.mpr ⟨h.distinct, hdrawn, fun id hid other hother => ?_⟩,
    fun id hid => ?_⟩
  · exact hdisjoint id (h.known id hid) other hother
  · rcases List.mem_append.mp hid with hid | hid
    · exact List.mem_append_left _ (h.known id hid)
    · exact List.mem_append_right _ hid

-- Numbers that the first run alone draws.
theorem drawFirst (h : Matched pairs lead ids ids' numbers numbers') {count : Nat}
    (hdistinct : (numbers ++ ids.drawn count).Nodup) :
    Matched pairs (lead + count) (ids.after count) ids' (numbers ++ ids.drawn count) numbers' where
  firsts := h.firsts.trans (List.sublist_append_left _ _)
  seconds := h.seconds
  zero := h.zero
  source := by rw [EventIds.after_add, ← h.source]
  known := (h.distinct_drawn hdistinct).2
  distinct := (h.distinct_drawn hdistinct).1

-- Numbers that both runs draw.
theorem drawBoth (h : Matched pairs lead ids ids' numbers numbers') {count : Nat}
    (hdistinct : (numbers ++ ids.drawn count).Nodup) :
    Matched (pairs ++ (ids.drawn count).zip (ids'.drawn count)) lead (ids.after count)
      (ids'.after count) (numbers ++ ids.drawn count) (numbers' ++ ids'.drawn count) := by
  obtain ⟨hboth, hknown⟩ := h.distinct_drawn hdistinct
  rw [Nat.add_comm lead count, EventIds.drawn_add, ← List.append_assoc] at hboth hknown
  refine ⟨?_, ?_, fun p hp => ?_, ?_, hknown, hboth⟩
  · rw [List.map_append, List.map_fst_zip (by simp)]
    exact h.firsts.append (List.Sublist.refl _)
  · rw [List.map_append, List.map_snd_zip (by simp), h.seconds]
  · rcases List.mem_append.mp hp with hp | hp
    · exact h.zero p hp
    · obtain ⟨hfirst, hsecond⟩ := List.of_mem_zip hp
      exact iff_of_false (EventIds.ne_zero_of_mem_drawn hfirst)
        (EventIds.ne_zero_of_mem_drawn hsecond)
  · rw [← EventIds.after_add, Nat.add_comm count lead, EventIds.after_add, ← h.source]

theorem map_drawn {ρ : Renumbering} {count : Nat}
    (h : ∀ p ∈ (ids.drawn count).zip (ids'.drawn count), ρ p.1 = p.2) :
    (ids.drawn count).map ρ = ids'.drawn count := by
  have hfirst : ((ids.drawn count).zip (ids'.drawn count)).map (·.1) = ids.drawn count :=
    List.map_fst_zip (by simp)
  have hsecond : ((ids.drawn count).zip (ids'.drawn count)).map (·.2) = ids'.drawn count :=
    List.map_snd_zip (by simp)
  calc (ids.drawn count).map ρ
      = ((ids.drawn count).zip (ids'.drawn count)).map fun p => ρ p.1 := by
        conv_lhs => rw [← hfirst, List.map_map]
        rfl
    _ = ids'.drawn count := by rw [List.map_congr_left h, hsecond]

-- Both runs go on with the same source.
theorem restart (h : Matched pairs lead ids ids' numbers numbers') (fresh : EventIds) :
    Matched pairs 0 fresh fresh numbers numbers' where
  firsts := h.firsts
  seconds := h.seconds
  zero := h.zero
  source := rfl
  known := fun id hid => by
    rw [EventIds.drawn, List.append_nil] at hid
    exact h.subset hid
  distinct := by
    rw [EventIds.drawn, List.append_nil]
    exact h.nodup

end Matched

end TouchGestures
