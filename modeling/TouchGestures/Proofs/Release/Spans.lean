import TouchGestures.Proofs.Release.Record

namespace TouchGestures

namespace Gesture.Family

variable {f : Family} {isOpen isOpen' : Bool}

-- Gestures of other families leave a family as it is.
theorem next_of_foreign {k : Kind} (hne : k ≠ f.opener) (hfollows : k.antecedent ≠ some f.opener) :
    f.next isOpen k = some isOpen := by
  have hends : f.ends k = false := by
    cases hends : f.ends k with
    | false => rfl
    | true => exact absurd (antecedent_of_ends hends) hfollows
  simp [next, hne, hends, hfollows]

theorem run_of_foreign {gestures : List Gesture}
    (hforeign : ∀ g ∈ gestures, g.kind ≠ f.opener ∧ g.kind.antecedent ≠ some f.opener) :
    f.run isOpen gestures = some isOpen := by
  induction gestures with
  | nil => rfl
  | cons g rest ih =>
    obtain ⟨hne, hfollows⟩ := hforeign g List.mem_cons_self
    rw [run_cons, next_of_foreign hne hfollows, Option.bind_some]
    exact ih fun g' hg' => hforeign g' (List.mem_cons_of_mem g hg')

-- What has to do with taps has nothing to do with the other families.
theorem foreign_of_antecedent_tapDown (hf : f ≠ .tap) {k : Kind}
    (hk : k.antecedent = some .tapDown) : k ≠ f.opener ∧ k.antecedent ≠ some f.opener := by
  refine ⟨fun heq => ?_, fun heq => ?_⟩
  · rw [heq, antecedent_opener] at hk
    cases hk
  · rw [hk] at heq
    cases f with
    | tap => exact hf rfl
    | scroll | pinch => cases heq

-- A scroll or a pinch is only ended by what closes something.
theorem isTerminating_of_ends (hf : f ≠ .tap) {k : Kind} (hends : f.ends k = true) :
    k.isTerminating = true := by
  cases f with
  | tap => exact absurd rfl hf
  | scroll | pinch =>
    cases k <;> simp_all [ends, Kind.endsScroll, Kind.isTerminating]

end Gesture.Family

namespace Release

open Gesture (Family)

-- What went out of a family is in order. It is open if it is open in the packets and its
-- opener was not suppressed.
structure TracksSpan (f : Family) (o : Outlet) (isOpen : Bool) (fates : List Fate) : Prop where
  faithful : Outlet.Faithful f o isOpen
  follows : f.run false (outOf fates) = some (isOpen && !o.suppression.silences f)

namespace TracksSpan

variable {f : Family} {o : Outlet} {p : Packet} {g : Gesture} {x : Fate} {fates : List Fate}
  {isOpen isOpen' : Bool}

theorem start (f : Family) : TracksSpan f {} false [] where
  faithful := Outlet.faithful_empty _ _
  follows := rfl

theorem judging (h : TracksSpan f o isOpen fates)
    (hstart : p.source = .sequenceStart → isOpen = false) :
    TracksSpan f (o.judging p) isOpen fates where
  faithful := h.faithful.judging hstart
  follows := by
    rw [h.follows]
    by_cases hsource : p.source = .sequenceStart
    · rw [hstart hsource, Bool.false_and, Bool.false_and]
    · simp [Outlet.judging, hsource, Suppression.silences_judge_of_not_start]

theorem run_append (h : TracksSpan f o isOpen fates) {isOpenAfter : Bool}
    (hx : f.run (isOpen && !o.suppression.silences f) x.out = some isOpenAfter) :
    f.run false (outOf (fates ++ [x])) = some isOpenAfter := by
  rw [outOf_append, Family.run_append, h.follows]
  simpa using hx

-- All that goes out with a dropped gesture is the end of a tap.
theorem run_out_of_drops (hf : f ≠ .tap) (hdrops : o.suppression.drops g.kind = true) :
    f.run isOpen (o.fate p g).out = some isOpen := by
  refine Family.run_of_foreign fun made hmade => ?_
  have hkind : made.kind.antecedent = some .tapDown := by
    obtain ⟨opener, -, rfl⟩ : ∃ opener, o.openTap = some opener ∧
        Outlet.closing .tapCancel opener p = made := by
      simpa [Outlet.fate, hdrops, Fate.out] using hmade
    rfl
  exact Family.foreign_of_antecedent_tapDown hf hkind

theorem out_of_not_drops (hdrops : o.suppression.drops g.kind = false) :
    (o.fate p g).out = [g] := by
  simp [Outlet.fate, hdrops, Fate.out]

-- An opener opens the family unless it is dropped, and then the family is silenced.
theorem offer_opener (hf : f ≠ .tap) (h : TracksSpan f o false fates) (hkind : g.kind = f.opener)
    (hfaithful : Outlet.Faithful f (o.offer p g).2 true) :
    TracksSpan f (o.offer p g).2 true (fates ++ [o.fate p g]) := by
  refine ⟨hfaithful, h.run_append ?_⟩
  rw [Outlet.suppression_offer, Bool.false_and, Bool.true_and]
  cases hdrops : o.suppression.drops g.kind with
  | true =>
    rw [run_out_of_drops hf hdrops, hkind, Suppression.silences_note_opener, Bool.true_or,
      Bool.not_true]
  | false =>
    rw [out_of_not_drops hdrops, hkind, Suppression.silences_note_opener, Bool.false_or,
      Suppression.sequenceConsumed_of_not_drops hdrops]
    simp [Family.next, hkind]

-- An ending goes out exactly if the opener did.
theorem offer_ending (hf : f ≠ .tap) (h : TracksSpan f o true fates) (hne : g.kind ≠ f.opener)
    (hends : f.ends g.kind = true) (hfaithful : Outlet.Faithful f (o.offer p g).2 false) :
    TracksSpan f (o.offer p g).2 false (fates ++ [o.fate p g]) := by
  refine ⟨hfaithful, h.run_append ?_⟩
  have hfollows := Family.antecedent_of_ends hends
  rw [Bool.true_and, Bool.false_and]
  cases hsilent : o.suppression.silences f with
  | true => exact run_out_of_drops hf (Suppression.drops_of_silences hsilent hfollows)
  | false =>
    have hdrops := Suppression.not_drops_of_isTerminating hsilent hfollows
      (Family.isTerminating_of_ends hf hends)
    rw [out_of_not_drops hdrops]
    simp [Family.next, hne, hends]

-- Any other gesture of the family goes out only while the family is open.
theorem offer_other (hf : f ≠ .tap) (h : TracksSpan f o isOpen fates) (hne : g.kind ≠ f.opener)
    (hends : f.ends g.kind = false)
    (hopen : g.kind.antecedent = some f.opener → isOpen = true) :
    TracksSpan f (o.offer p g).2 isOpen (fates ++ [o.fate p g]) := by
  refine ⟨h.faithful.offer_of_ne hne hends, h.run_append ?_⟩
  rw [Outlet.suppression_offer, Suppression.silences_note_of_ne _ _ hne]
  cases hdrops : o.suppression.drops g.kind with
  | true => exact run_out_of_drops hf hdrops
  | false =>
    rw [out_of_not_drops hdrops, Family.run_singleton]
    by_cases hfollows : g.kind.antecedent = some f.opener
    · have hsilent : o.suppression.silences f = false := by
        cases hsilent : o.suppression.silences f with
        | false => rfl
        | true =>
          rw [Suppression.drops_of_silences hsilent hfollows] at hdrops
          cases hdrops
      rw [hopen hfollows, hsilent]
      simp [Family.next, hne, hends]
    · exact Family.next_of_foreign hne hfollows

theorem offer (hf : f ≠ .tap) (h : TracksSpan f o isOpen fates)
    (hnext : f.next isOpen g.kind = some isOpen') :
    TracksSpan f (o.offer p g).2 isOpen' (fates ++ [o.fate p g]) := by
  have hfaithful := h.faithful.offer (p := p) hnext
  obtain ⟨hopener, rfl, rfl⟩ | ⟨hne, hends, rfl, rfl⟩ | ⟨hne, hends, rfl, hopen⟩ :=
    Family.next_cases hnext
  · exact h.offer_opener hf hopener hfaithful
  · exact h.offer_ending hf hne hends hfaithful
  · exact h.offer_other hf hne hends hopen

-- When a sequence ends, its scroll has ended before, so that only a tap is called off. A
-- pinch takes no notice of either.
theorem closeAll (hf : f ≠ .tap) (h : TracksSpan f o false fates) :
    TracksSpan f (o.closeAll p).2 false (fates ++ (o.closeAll p).1.map .closing) := by
  have hfaithful : Outlet.Faithful f (o.closeAll p).2 false := by
    intro hholds
    cases f <;> cases hholds
  refine ⟨hfaithful, ?_⟩
  rw [outOf_append, Family.run_append, h.follows, outOf_map_closing, Bool.false_and,
    Option.bind_some]
  refine Family.run_of_foreign fun made hmade => ?_
  obtain ⟨opener, hopener, rfl⟩ | ⟨opener, -, rfl⟩ :
      (∃ opener, o.openScroll = some opener ∧ Outlet.closing .scrollEnd opener p = made) ∨
        ∃ opener, o.openTap = some opener ∧ Outlet.closing .tapCancel opener p = made := by
    simpa [Outlet.closeAll, Outlet.closeScroll, Outlet.closeTap] using hmade
  · cases f with
    | tap => exact absurd rfl hf
    | scroll =>
      obtain ⟨hopen, -⟩ := h.faithful (by simp [Outlet.holds, hopener])
      cases hopen
    | pinch =>
      refine ⟨fun heq => ?_, fun heq => ?_⟩
      · cases heq
      · cases heq
  · exact Family.foreign_of_antecedent_tapDown hf rfl

theorem alarm_foreign (hf : f ≠ .tap) (hk : g.kind = .showPress ∨ g.kind = .longPress) :
    g.kind.antecedent ≠ some f.opener := by
  have htap : g.kind.antecedent = some .tapDown := by
    rcases hk with hk | hk <;> rw [hk] <;> rfl
  exact (Family.foreign_of_antecedent_tapDown hf htap).2

theorem invariant (hf : f ≠ .tap) : Invariant f (TracksSpan f) where
  judging := judging
  offer := fun _ => offer hf
  closeAll := fun _ => closeAll hf
  offerAlarm := by
    intro o isOpen fates g p h hk
    obtain ⟨hne, hends⟩ := Outlet.ne_opener_of_alarm (f := f) hk
    exact h.offer_other hf hne hends fun hfollows => absurd hfollows (alarm_foreign hf hk)
  sendAlarm := by
    intro o isOpen fates g h hk
    obtain ⟨hne, hends⟩ := Outlet.ne_opener_of_alarm (f := f) hk
    refine ⟨h.faithful.send_of_ne hne hends, h.run_append ?_⟩
    rw [Outlet.suppression_send, Fate.out, Family.run_singleton]
    exact Family.next_of_foreign hne (alarm_foreign hf hk)

end TracksSpan

end Release

end TouchGestures
