import Mathlib.Algebra.GroupWithZero.Nat
import TouchGestures.Proofs.Router.Freed
import TouchGestures.Proofs.Router.Isolation

namespace TouchGestures

namespace Router

variable {r r₁ r₂ : Router} {c : ConsumerId} {visits : List (Time × ConsumerId)}
  {notices : List Notice} {now : Time}

-- What is true of every router that a host can reach.
structure Ready (r : Router) : Prop where
  mirrors : ∃ books, r.Mirrors books
  owned : r.Owned

theorem Ready.cancel {result : Bool × List Notice × Router} (h : r.Ready)
    (hcancel : r.cancel now c = .ok result) : result.2.2.Ready := by
  obtain ⟨books, hm⟩ := h.mirrors
  unfold Router.cancel at hcancel
  split at hcancel
  · refine ⟨⟨_, hm.cancelChannel hcancel⟩, h.owned.congr ?_ fun key =>
      mem_channels_cancelChannel hcancel⟩
    obtain ⟨_, _, _, hframe⟩ := cancelChannel_frame hcancel
    rw [hframe]
  · cases hcancel
    exact h

theorem Ready.cancelAt (h : r.Ready) (hcancel : r.cancelAt visits = .ok (notices, r₁)) :
    r₁.Ready := by
  induction visits generalizing r notices with
  | nil =>
    cases hcancel
    exact h
  | cons visit rest ih =>
    obtain ⟨first, hfirst, hcancel⟩ := bind_eq_ok.mp hcancel
    obtain ⟨others, hothers, heq⟩ := bind_eq_ok.mp hcancel
    cases heq
    exact ih (h.cancel hfirst) hothers

theorem spares_refl : r.Spares c [] r := ⟨rfl, rfl, rfl, rfl, fun _ => Iff.rfl, fun _ => Iff.rfl⟩

theorem Spares.trans (h : r.Spares c [] r₁) (h' : r₁.Spares c [] r₂) : r.Spares c [] r₂ :=
  ⟨h'.settings.trans h.settings, h'.helpers.trans h.helpers, h'.nextHelper.trans h.nextHelper,
    h'.channel.trans h.channel, fun hid => (h'.events hid).trans (h.events hid),
    fun hid => (h'.orphans hid).trans (h.orphans hid)⟩

theorem Spares.liveCount (h : r.Spares c [] r₁) : r₁.liveCount c = r.liveCount c := by
  unfold Router.liveCount
  rw [h.channel]

theorem consumer_of_mem_cancel {result : Bool × List Notice × Router}
    (hcancel : r.cancel now c = .ok result) : ∀ notice ∈ result.2.1, notice.consumer = c := by
  unfold cancel at hcancel
  split at hcancel
  · exact consumer_of_mem_cancelChannel hcancel
  · cases hcancel
    simp

-- Cancelling the contacts of others does nothing to a consumer, and tells it nothing.
theorem spares_cancelAt (h : r.Ready) (hnot : c ∉ visits.map (·.2))
    (hcancel : r.cancelAt visits = .ok (notices, r₁)) :
    r.Spares c [] r₁ ∧ notices.filter (fun notice => notice.consumer = c) = [] := by
  induction visits generalizing r notices with
  | nil =>
    cases hcancel
    exact ⟨spares_refl, rfl⟩
  | cons visit rest ih =>
    obtain ⟨⟨cancelled, first, between⟩, hfirst, hcancel⟩ := bind_eq_ok.mp hcancel
    obtain ⟨⟨others, last⟩, hothers, heq⟩ := bind_eq_ok.mp hcancel
    cases heq
    obtain ⟨hne, hnot⟩ := not_or.mp (fun hor => hnot (List.mem_cons.mpr hor))
    obtain ⟨books, hm⟩ := h.mirrors
    obtain ⟨hrest, htold⟩ := ih (h.cancel hfirst) hnot hothers
    refine ⟨(spares_cancel hm h.owned (Ne.symm hne) hfirst).trans hrest, ?_⟩
    rw [List.filter_append, htold, List.append_nil, List.filter_eq_nil_iff]
    intro notice hnotice
    simp [consumer_of_mem_cancel hfirst notice hnotice, Ne.symm hne]

theorem owners_of_cancelAt (hcancel : r.cancelAt visits = .ok (notices, r₁)) :
    r₁.owners = r.owners := by
  obtain ⟨_, _, _, rfl⟩ := cancelAt_frame hcancel
  rfl

theorem channels_of_cancelAt {key : ChannelKey} (h : r.Ready) (hnot : c ∉ visits.map (·.2))
    (hcancel : r.cancelAt visits = .ok (notices, r₁)) (howner : key ∈ r.owners[c]?) :
    r₁.channels[key]? = r.channels[key]? := by
  have hchannel := (spares_cancelAt h hnot hcancel).1.channel
  rwa [channel?, channel?, owners_of_cancelAt hcancel, Option.mem_def.mp howner,
    Option.bind_some, Option.bind_some] at hchannel

-- The others still have as many contacts down.
theorem Ready.liveCounts_cancel {consumers : List ConsumerId}
    {result : Bool × List Notice × Router} (h : r.Ready) (hnot : c ∉ consumers)
    (hcancel : r.cancel now c = .ok result) :
    consumers.map result.2.2.liveCount = consumers.map r.liveCount :=
  List.map_congr_left fun other hother => by
    obtain ⟨books, hm⟩ := h.mirrors
    have hne : c ≠ other := fun heq => hnot (heq ▸ hother)
    exact (spares_cancel hm h.owned hne hcancel).liveCount

-- Each of the consumers draws as many numbers as it has contacts down.
theorem ids_cancelAt (h : r.Ready) (hnodup : (visits.map (·.2)).Nodup)
    (hcancel : r.cancelAt visits = .ok (notices, r₁)) :
    r₁.ids = r.ids.after ((visits.map (·.2)).map r.liveCount).sum := by
  induction visits generalizing r notices with
  | nil =>
    cases hcancel
    rfl
  | cons visit rest ih =>
    obtain ⟨⟨cancelled, first, between⟩, hfirst, hcancel⟩ := bind_eq_ok.mp hcancel
    obtain ⟨⟨others, last⟩, hothers, heq⟩ := bind_eq_ok.mp hcancel
    cases heq
    obtain ⟨hnot, hnodup⟩ := List.nodup_cons.mp hnodup
    rw [ih (h.cancel hfirst) hnodup hothers, ids_cancel h.owned hfirst,
      h.liveCounts_cancel hnot hfirst, List.map_cons, List.map_cons, List.sum_cons,
      EventIds.after_add]

theorem cancelAt_append_eq_ok {first second : List (Time × ConsumerId)}
    (h : r.cancelAt (first ++ second) = .ok (notices, r₁)) :
    ∃ earlier between later, r.cancelAt first = .ok (earlier, between) ∧
      between.cancelAt second = .ok (later, r₁) ∧ notices = earlier ++ later := by
  induction first generalizing r notices with
  | nil => exact ⟨[], r, notices, rfl, h, rfl⟩
  | cons visit rest ih =>
    obtain ⟨⟨cancelled, given, between⟩, hfirst, h⟩ := bind_eq_ok.mp h
    obtain ⟨⟨others, last⟩, hothers, heq⟩ := bind_eq_ok.mp h
    cases heq
    obtain ⟨earlier, middle, later, hearlier, hlater, rfl⟩ := ih hothers
    refine ⟨given ++ earlier, middle, later, ?_, hlater, (List.append_assoc _ _ _).symm⟩
    rw [cancelAt, hfirst, ok_bind]
    dsimp only
    rw [hearlier, ok_bind]

end Router

namespace Session

open Router (Op)

variable {s s' : Session} {permits : Session → Op → Prop}
  {consumers : List ConsumerId} {clock : Clock}

theorem Reached.ready (h : Reached permits s) : s.router.Ready := ⟨⟨s.books, h.mirrors⟩, h.owned⟩

-- What was down for the consumers is freed, whenever each of them is visited.
theorem exists_cancelAt (hm : s.router.Mirrors s.books) (howned : s.router.Owned)
    (visits : List (Time × ConsumerId)) :
    ∃ notices s', s.router.cancelAt visits = .ok (notices, s'.router) ∧
      s.Frees s' (visits.map (·.2)) := by
  induction visits generalizing s with
  | nil => exact ⟨[], s, rfl, frees_nil hm howned⟩
  | cons visit rest ih =>
    obtain ⟨now, consumer⟩ := visit
    obtain ⟨cancelled, first, between, hfirst, hfrees⟩ := exists_cancel hm howned now consumer
    obtain ⟨others, s', hothers, hrest⟩ := ih hfrees.mirrors hfrees.owned
    refine ⟨first ++ others, s', ?_, hfrees.append hrest⟩
    rw [Router.cancelAt, hfirst, ok_bind]
    dsimp only
    rw [hothers, ok_bind]

-- Cancelling contacts brings in just the numbers that are drawn for it.
theorem numbers_cancelEach (hm : s.router.Mirrors s.books) (howned : s.router.Owned)
    (hnodup : consumers.Nodup) (hs : s.play (s.router.cancelEachActs clock consumers) = .ok s') :
    s'.numbers =
      s.numbers ++ s.router.ids.drawn (consumers.map s.router.liveCount).sum := by
  induction consumers generalizing s clock with
  | nil =>
    cases hs
    simp [EventIds.drawn]
  | cons c rest ih =>
    obtain ⟨hnot, hnodup⟩ := List.nodup_cons.mp hnodup
    obtain ⟨between, hfirst, hrest⟩ := play_append_eq_ok hs
    rw [after_of_play hfirst] at hrest
    have hperform : s.perform (.cancel clock.now c) = .ok between := hfirst
    have hseparate : (Op.cancel clock.now c).Separate [] := trivial
    have hnumbers := numbers_perform howned hseparate hperform
    obtain ⟨given, hcancel⟩ := perform_router hperform
    obtain ⟨⟨cancelled, result⟩, hcancel, heq⟩ := map_eq_ok.mp hcancel
    obtain rfl : result = (given, between.router) := heq
    have hfrees := frees_of_cancelActs hm howned hfirst
    have hready : s.router.Ready := ⟨⟨s.books, hm⟩, howned⟩
    rw [ih hfrees.mirrors hfrees.owned hnodup hrest, hnumbers,
      hready.liveCounts_cancel hnot hcancel, Router.ids_cancel howned hcancel, List.map_cons,
      List.sum_cons, EventIds.drawn_add, ← List.append_assoc]
    rfl

end Session

end TouchGestures
