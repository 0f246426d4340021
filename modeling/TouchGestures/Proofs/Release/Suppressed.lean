import Mathlib.Data.List.DropRight
import TouchGestures.Proofs.Release.Record

namespace TouchGestures.Release

open Gesture (Family)

def latestOpener (f : Family) (packets : List Packet) : Option Packet :=
  packets.reverse.find? fun p => p.gestures.any fun g => g.kind = f.opener

theorem latestOpener_cons {f : Family} (p : Packet) (rest : List Packet) :
    latestOpener f (p :: rest) =
      (latestOpener f rest).or
        (if p.gestures.any fun g => g.kind = f.opener then some p else none) := by
  unfold latestOpener
  rw [List.reverse_cons, List.find?_append, List.find?_singleton]

theorem latestOpener_concat {f : Family} (packets : List Packet) (p : Packet) :
    latestOpener f (packets ++ [p]) =
      if p.gestures.any fun g => g.kind = f.opener then some p else latestOpener f packets := by
  unfold latestOpener
  rw [List.reverse_append, List.reverse_singleton, List.singleton_append, List.find?_cons]
  cases p.gestures.any fun g => g.kind = f.opener <;> rfl

-- Whether a gesture is dropped that a packet carries after some others, by what has
-- happened since the outlet forgot its history: the consumer handled the touch behind it
-- and it closes nothing, or the touch that opened its family.
def Suppressed (packets : List Packet) (p : Packet) (before : List Gesture) (g : Gesture) : Prop :=
  (p.isConsumed = true ∧ g.kind.isTerminating = false) ∨
    ∃ f : Family, g.kind.antecedent = some f.opener ∧
      ∃ opening ∈ latestOpener f (packets ++ [{ p with gestures := before }]),
        opening.isConsumed = true

def sinceForgotten (items : List Item) : List Item := items.rtakeWhile (· ≠ .forgotten)

theorem forgotten_notMem_sinceForgotten (items : List Item) :
    .forgotten ∉ sinceForgotten items := by
  intro hmem
  have hne := List.mem_rtakeWhile_imp hmem
  simp at hne

-- The last time the history was forgotten.
theorem eq_append_sinceForgotten {items : List Item} (h : .forgotten ∈ items) :
    ∃ before, items = before ++ .forgotten :: sinceForgotten items := by
  have hsplit := List.rdropWhile_append_rtakeWhile (p := fun item => item ≠ Item.forgotten)
    (l := items)
  have hne : items.rdropWhile (fun item => item ≠ Item.forgotten) ≠ [] := by
    intro hnil
    have hall := List.rdropWhile_eq_nil_iff.mp hnil .forgotten h
    simp at hall
  have hlast := List.rdropWhile_last_not (fun item => item ≠ Item.forgotten) items hne
  have hlast : (items.rdropWhile fun item => item ≠ Item.forgotten).getLast hne = .forgotten := by
    simpa using hlast
  refine ⟨(items.rdropWhile fun item => item ≠ Item.forgotten).dropLast, ?_⟩
  have hconcat := List.dropLast_append_getLast hne
  rw [hlast] at hconcat
  rw [List.append_cons, hconcat]
  exact hsplit.symm

namespace Outlet

variable {o : Outlet} {p : Packet} {f : Family}

def passed (o : Outlet) (p : Packet) : List Gesture :=
  ((o.judging p).fatesOf p p.gestures).filterMap Fate.sent?

theorem passedOf_eq_nil_iff (o : Outlet) (p : Packet) (gestures : List Gesture) :
    (o.fatesOf p gestures).filterMap Fate.sent? = [] ↔
      ∀ before g after, gestures = before ++ g :: after →
        (o.offerAll p before).2.suppression.drops g.kind = true := by
  induction gestures generalizing o with
  | nil => simp [fatesOf]
  | cons first rest ih =>
    have hfirst : (o.fate p first).sent? = none ↔ o.suppression.drops first.kind = true := by
      unfold fate
      split
      · next hdrops => simp [Fate.sent?, hdrops]
      · next hdrops => simp [Fate.sent?, hdrops]
    rw [fatesOf]
    constructor
    · intro hnil before g after heq
      cases hsent : (o.fate p first).sent? with
      | some g => simp [hsent] at hnil
      | none =>
        rw [List.filterMap_cons_none hsent] at hnil
        cases before with
        | nil =>
          obtain ⟨rfl, -⟩ := List.cons.inj heq
          exact hfirst.mp hsent
        | cons first' before =>
          obtain ⟨rfl, hrest⟩ := List.cons.inj heq
          exact (ih _).mp hnil before g after hrest
    · intro hall
      have hsent := hfirst.mpr (hall [] first rest rfl)
      rw [List.filterMap_cons_none hsent, ih]
      intro before g after heq
      exact hall (first :: before) g after (by rw [heq]; rfl)

theorem suppression_sendAll (o : Outlet) (gestures : List Gesture) :
    (o.sendAll gestures).suppression = o.suppression := by
  unfold sendAll
  induction gestures generalizing o with
  | nil => rfl
  | cons g rest ih => rw [List.foldl_cons, ih, suppression_send]

theorem suppression_release (o : Outlet) (p : Packet) :
    (o.release p).2.suppression = ((o.judging p).offerAll p p.gestures).2.suppression := by
  rw [release_eq]
  split <;> rfl

theorem sequenceConsumed_offerAll (o : Outlet) (p : Packet) (gestures : List Gesture) :
    (o.offerAll p gestures).2.suppression.sequenceConsumed = o.suppression.sequenceConsumed := by
  induction gestures generalizing o with
  | nil => rfl
  | cons g rest ih =>
    rw [offerAll_cons_snd, ih, suppression_offer, Suppression.sequenceConsumed_note]

theorem judging_of_not_start (h : p.source ≠ .sequenceStart) :
    o.judging p = { o with suppression := { o.suppression with touchConsumed := p.isConsumed } } := by
  simp [judging, Suppression.judge, h]

theorem sequenceConsumed_judging_of_start (h : p.source = .sequenceStart) :
    (o.judging p).suppression.sequenceConsumed = p.isConsumed := by
  simp [judging, Suppression.judge, h]

-- Who the sequence belongs to is settled by its first touch, until the next sequence or
-- until the history is forgotten.
theorem sequenceConsumed_replay {items : List Item} (hforgotten : .forgotten ∉ items)
    (hstart : ∀ p ∈ packetsOf items, p.source ≠ .sequenceStart) :
    (o.replay items).2.suppression.sequenceConsumed = o.suppression.sequenceConsumed := by
  induction items generalizing o with
  | nil => rfl
  | cons item rest ih =>
    rw [List.mem_cons, not_or] at hforgotten
    cases item with
    | packet p =>
      rw [packetsOf_packet_cons] at hstart
      rw [replay_cons, ih hforgotten.2 fun q hq => hstart q (List.mem_cons_of_mem p hq)]
      rw [take, suppression_release, sequenceConsumed_offerAll,
        judging_of_not_start (hstart p List.mem_cons_self)]
    | alarm p suppressing =>
      rw [packetsOf_alarm_cons] at hstart
      rw [replay_cons, ih hforgotten.2 hstart, take, releaseTimeout]
      cases suppressing with
      | true => exact sequenceConsumed_offerAll o p p.gestures
      | false => rw [if_neg (by simp), suppression_sendAll]
    | forgotten => exact absurd rfl hforgotten.1

-- Nothing of a sequence that belongs to the consumer goes out.
theorem passed_eq_nil (h : (o.judging p).suppression.sequenceConsumed = true) :
    o.passed p = [] := by
  unfold passed
  rw [passedOf_eq_nil_iff]
  intro before g after _
  have hseq := sequenceConsumed_offerAll (o.judging p) p before
  simp [Suppression.drops, hseq, h]

theorem isTerminating_opener (f : Family) : f.opener.isTerminating = false := by
  cases f <;> rfl

-- An opener is dropped just if the consumer handled its touch.
theorem isDropped_offer (hseq : o.suppression.sequenceConsumed = false) (g : Gesture) :
    (o.offer p g).2.suppression.isDropped f.opener =
      if g.kind = f.opener then o.suppression.touchConsumed else o.suppression.isDropped f.opener := by
  rw [suppression_offer]
  split
  · next hopener =>
    rw [hopener, Suppression.isDropped_note_self _ f.antecedent_opener]
    simp [Suppression.drops, hseq, isTerminating_opener]
  · next hopener => rw [Suppression.isDropped_note_of_ne _ (Ne.symm hopener)]

theorem touchConsumed_offerAll (o : Outlet) (p : Packet) (gestures : List Gesture) :
    (o.offerAll p gestures).2.suppression.touchConsumed = o.suppression.touchConsumed := by
  induction gestures generalizing o with
  | nil => rfl
  | cons g rest ih => rw [offerAll_cons_snd, ih, touchConsumed_offer]

theorem isDropped_offerAll (hseq : o.suppression.sequenceConsumed = false)
    (gestures : List Gesture) :
    (o.offerAll p gestures).2.suppression.isDropped f.opener =
      if gestures.any fun g => g.kind = f.opener then o.suppression.touchConsumed
      else o.suppression.isDropped f.opener := by
  induction gestures generalizing o with
  | nil => rfl
  | cons g rest ih =>
    have hseq' : (o.offer p g).2.suppression.sequenceConsumed = false := by
      rw [suppression_offer, Suppression.sequenceConsumed_note, hseq]
    rw [offerAll_cons_snd, ih hseq', touchConsumed_offer, isDropped_offer hseq]
    by_cases hg : g.kind = f.opener <;> simp [hg]

theorem isDropped_release (hseq : o.suppression.sequenceConsumed = false)
    (hstart : p.source ≠ .sequenceStart) :
    (o.release p).2.suppression.isDropped f.opener =
      if p.gestures.any fun g => g.kind = f.opener then p.isConsumed
      else o.suppression.isDropped f.opener := by
  have hseq' : (o.judging p).suppression.sequenceConsumed = false := by
    rw [judging_of_not_start hstart]
    exact hseq
  rw [suppression_release, isDropped_offerAll hseq', judging_of_not_start hstart]
  cases f <;> rfl

theorem isDropped_alarm (hkinds : ∀ g ∈ p.gestures, g.kind = .showPress ∨ g.kind = .longPress)
    (hseq : o.suppression.sequenceConsumed = false) (suppressing : Bool) :
    (o.releaseTimeout p suppressing).2.suppression.isDropped f.opener =
      o.suppression.isDropped f.opener := by
  cases suppressing with
  | true =>
    have hnone : (p.gestures.any fun g => g.kind = f.opener) = false := by
      rw [List.any_eq_false]
      intro g hg
      simpa using (ne_opener_of_alarm (hkinds g hg)).1
    rw [releaseTimeout, if_pos rfl, isDropped_offerAll hseq, hnone]
    rfl
  | false => rw [releaseTimeout, if_neg (by simp), suppression_sendAll]

-- Within a sequence a family is silenced just if the consumer handled the touch of its
-- latest opener.
theorem isDropped_replay {items : List Item} (hseq : o.suppression.sequenceConsumed = false)
    (hforgotten : .forgotten ∉ items) (hstart : ∀ p ∈ packetsOf items, p.source ≠ .sequenceStart)
    (halarms : PressAlarms items) :
    (o.replay items).2.suppression.isDropped f.opener =
      ((latestOpener f (packetsOf items)).map Packet.isConsumed).getD
        (o.suppression.isDropped f.opener) := by
  induction items generalizing o with
  | nil => rfl
  | cons item rest ih =>
    have hseq' : (o.take item).2.suppression.sequenceConsumed = false := by
      rw [← replay_singleton, sequenceConsumed_replay _ _, hseq]
      · simp_all
      · intro p hp
        exact hstart p (by cases item <;> simp_all)
    rw [List.mem_cons, not_or] at hforgotten
    have halarms' : PressAlarms rest := fun p suppressing hmem =>
      halarms p suppressing (List.mem_cons_of_mem item hmem)
    cases item with
    | packet p =>
      rw [packetsOf_packet_cons] at hstart ⊢
      rw [replay_cons, ih hseq' hforgotten.2 (fun q hq => hstart q (List.mem_cons_of_mem p hq))
        halarms', take, isDropped_release hseq (hstart p List.mem_cons_self), latestOpener_cons]
      cases latestOpener f (packetsOf rest) with
      | some opening => rfl
      | none => split <;> rfl
    | alarm p suppressing =>
      rw [packetsOf_alarm_cons] at hstart ⊢
      rw [replay_cons, ih hseq' hforgotten.2 hstart halarms', take,
        isDropped_alarm (halarms p suppressing List.mem_cons_self) hseq]
    | forgotten => exact absurd rfl hforgotten.1

theorem dropped_iff_suppressed {packets : List Packet} {before : List Gesture} {g : Gesture}
    (hseq : o.suppression.sequenceConsumed = false) (hstart : p.source ≠ .sequenceStart)
    (hdropped : ∀ f : Family, o.suppression.isDropped f.opener =
      ((latestOpener f packets).map Packet.isConsumed).getD false) :
    ((o.judging p).offerAll p before).2.suppression.drops g.kind = true ↔
      Suppressed packets p before g := by
  have hseq' : (o.judging p).suppression.sequenceConsumed = false := by
    rw [judging_of_not_start hstart]
    exact hseq
  have htouch : (o.judging p).suppression.touchConsumed = p.isConsumed := by
    rw [judging_of_not_start hstart]
  have hopeners : ∀ f : Family,
      ((o.judging p).offerAll p before).2.suppression.isDropped f.opener =
        ((latestOpener f (packets ++ [{ p with gestures := before }])).map
          Packet.isConsumed).getD false := by
    intro f
    have hsame : (o.judging p).suppression.isDropped f.opener = o.suppression.isDropped f.opener := by
      rw [judging_of_not_start hstart]
      cases f <;> rfl
    rw [isDropped_offerAll hseq', htouch, hsame, hdropped f, latestOpener_concat]
    split <;> rfl
  have hantecedent : (g.kind.antecedent.any
      ((o.judging p).offerAll p before).2.suppression.isDropped) = true ↔
      ∃ f : Family, g.kind.antecedent = some f.opener ∧
        ∃ opening ∈ latestOpener f (packets ++ [{ p with gestures := before }]),
          opening.isConsumed = true := by
    rw [Option.any_eq_true]
    constructor
    · rintro ⟨opener, hopener, hdropped⟩
      obtain ⟨f, rfl⟩ := Family.eq_opener_of_antecedent hopener
      rw [hopeners f] at hdropped
      refine ⟨f, hopener, ?_⟩
      cases hlatest : latestOpener f (packets ++ [{ p with gestures := before }]) with
      | none => simp [hlatest] at hdropped
      | some opening => exact ⟨opening, rfl, by simpa [hlatest] using hdropped⟩
    · rintro ⟨f, hopener, opening, hlatest, hconsumed⟩
      exact ⟨f.opener, hopener, by rw [hopeners f, hlatest]; exact hconsumed⟩
  unfold Suppression.drops Suppressed
  rw [sequenceConsumed_offerAll, hseq', touchConsumed_offerAll, htouch, Bool.or_false,
    Bool.or_eq_true, hantecedent, Bool.and_eq_true, Bool.not_eq_true']
  exact Or.comm

-- In a sequence whose history was forgotten, a packet lets out just what its own verdict and
-- those on the openers since then allow.
theorem passed_eq_nil_iff {items : List Item} (hforgotten : .forgotten ∉ items)
    (hstart : ∀ q ∈ packetsOf items, q.source ≠ .sequenceStart) (halarms : PressAlarms items)
    (hp : p.source ≠ .sequenceStart) :
    (replay {} items).2.passed p = [] ↔
      ∀ before g after, p.gestures = before ++ g :: after →
        Suppressed (packetsOf items) p before g := by
  have hseq : (replay {} items).2.suppression.sequenceConsumed = false :=
    sequenceConsumed_replay hforgotten hstart
  have hdropped : ∀ f : Family, (replay {} items).2.suppression.isDropped f.opener =
      ((latestOpener f (packetsOf items)).map Packet.isConsumed).getD false := by
    intro f
    rw [isDropped_replay rfl hforgotten hstart halarms]
    cases f <;> rfl
  unfold passed
  rw [passedOf_eq_nil_iff]
  refine forall_congr' fun before => forall_congr' fun g => forall_congr' fun after => ?_
  exact imp_congr_right fun _ => dropped_iff_suppressed hseq hp hdropped

end Outlet

end TouchGestures.Release
