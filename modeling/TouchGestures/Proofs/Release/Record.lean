import TouchGestures.Proofs.Release.Invariant

namespace TouchGestures.Release

open Gesture (Family)

namespace Suppression

-- Whether nothing of a family can go out before its next opener.
def silences (s : Suppression) (f : Family) : Bool := s.isDropped f.opener || s.sequenceConsumed

theorem drops_of_silences {s : Suppression} {f : Family} {k : Gesture.Kind}
    (h : s.silences f = true) (hk : k.antecedent = some f.opener) : s.drops k = true := by
  simp_all [silences, drops]

theorem sequenceConsumed_of_not_drops {s : Suppression} {k : Gesture.Kind}
    (h : s.drops k = false) : s.sequenceConsumed = false := by
  simp_all [drops]

@[simp] theorem sequenceConsumed_note (s : Suppression) (k : Gesture.Kind) (dropped : Bool) :
    (s.note k dropped).sequenceConsumed = s.sequenceConsumed := by
  cases k <;> rfl

theorem silences_note_opener (s : Suppression) (f : Family) (dropped : Bool) :
    (s.note f.opener dropped).silences f = (dropped || s.sequenceConsumed) := by
  simp [silences, isDropped_note_self dropped f.antecedent_opener]

theorem silences_note_of_ne {f : Family} {k : Gesture.Kind} (s : Suppression) (dropped : Bool)
    (hk : k ≠ f.opener) : (s.note k dropped).silences f = s.silences f := by
  simp [silences, isDropped_note_of_ne dropped hk.symm]

theorem silences_judge_of_not_start (s : Suppression) (f : Family) (consumed : Bool) :
    (s.judge consumed false).silences f = s.silences f := by
  cases f <;> rfl

-- What closes something goes out unless its whole family is silenced.
theorem not_drops_of_isTerminating {s : Suppression} {f : Family} {k : Gesture.Kind}
    (hs : s.silences f = false) (hk : k.antecedent = some f.opener)
    (hterminating : k.isTerminating = true) : s.drops k = false := by
  simp_all [silences, drops]

end Suppression

namespace Outlet

variable {o : Outlet} {p : Packet} {f : Family} {isOpen isOpen' : Bool}

-- Whether an opener of the family went out that has not been closed. Pinches are not
-- recorded.
def holds (o : Outlet) : Family → Bool
  | .tap => o.openTap.isSome
  | .scroll => o.openScroll.isSome
  | .pinch => false

-- What is recorded as open is open in the packets as well, and can come to its own end.
def Faithful (f : Family) (o : Outlet) (isOpen : Bool) : Prop :=
  o.holds f = true → isOpen = true ∧ o.suppression.silences f = false

theorem faithful_empty (f : Family) (isOpen : Bool) : Faithful f {} isOpen := by
  intro h
  cases f <;> cases h

theorem holds_send_of_ne {g : Gesture} (hne : g.kind ≠ f.opener) (hends : f.ends g.kind = false) :
    (o.send g).holds f = o.holds f := by
  unfold send holds
  cases f <;> cases hk : g.kind <;>
    simp_all [Family.opener, Family.ends, Gesture.Kind.endsTap, Gesture.Kind.endsScroll]

theorem holds_send_of_ends {g : Gesture} (hends : f.ends g.kind = true) :
    (o.send g).holds f = false := by
  unfold send holds
  cases f <;> cases hk : g.kind <;>
    simp_all [Family.ends, Gesture.Kind.endsTap, Gesture.Kind.endsScroll]

theorem suppression_send (o : Outlet) (g : Gesture) : (o.send g).suppression = o.suppression := by
  unfold send
  split
  · rfl
  · split
    · rfl
    · split
      · rfl
      · split <;> rfl

@[simp] theorem holds_suppression (o : Outlet) (s : Suppression) :
    { o with suppression := s }.holds f = o.holds f := by
  cases f <;> rfl

theorem suppression_offer (o : Outlet) (p : Packet) (g : Gesture) :
    (o.offer p g).2.suppression = o.suppression.note g.kind (o.suppression.drops g.kind) := by
  cases hdrops : o.suppression.drops g.kind with
  | true => rw [offer_snd_of_drops hdrops]
  | false => rw [offer_snd_of_not_drops hdrops, suppression_send]

theorem touchConsumed_offer (o : Outlet) (p : Packet) (g : Gesture) :
    (o.offer p g).2.suppression.touchConsumed = o.suppression.touchConsumed := by
  rw [suppression_offer]
  cases g.kind <;> rfl

-- A gesture that is dropped ends at most the tap that is on record.
theorem holds_offer_of_drops {g : Gesture} (hdrops : o.suppression.drops g.kind = true)
    (h : (o.offer p g).2.holds f = true) : f = .scroll ∧ o.holds f = true := by
  rw [offer_snd_of_drops hdrops] at h
  cases f with
  | tap => cases h
  | scroll => exact ⟨rfl, h⟩
  | pinch => cases h

theorem Faithful.judging (h : Faithful f o isOpen)
    (hstart : p.source = .sequenceStart → isOpen = false) : Faithful f (o.judging p) isOpen := by
  intro hholds
  obtain ⟨hopen, hsilent⟩ := h (by simpa [Outlet.judging] using hholds)
  have hnot : p.source ≠ .sequenceStart := by
    intro hsource
    simp [hstart hsource] at hopen
  refine ⟨hopen, ?_⟩
  simpa [Outlet.judging, hnot, Suppression.silences_judge_of_not_start] using hsilent

-- Showing a press or finding it long opens and ends nothing.
theorem ne_opener_of_alarm {k : Gesture.Kind} (hk : k = .showPress ∨ k = .longPress) :
    k ≠ f.opener ∧ f.ends k = false := by
  rcases hk with rfl | rfl <;> cases f <;> exact ⟨by decide, rfl⟩

theorem Faithful.send_of_ne {g : Gesture} (h : Faithful f o isOpen) (hne : g.kind ≠ f.opener)
    (hends : f.ends g.kind = false) : Faithful f (o.send g) isOpen := by
  intro hholds
  rw [holds_send_of_ne hne hends] at hholds
  rw [suppression_send]
  exact h hholds

theorem Faithful.offer_of_ne {g : Gesture} (h : Faithful f o isOpen) (hne : g.kind ≠ f.opener)
    (hends : f.ends g.kind = false) : Faithful f (o.offer p g).2 isOpen := by
  cases hdrops : o.suppression.drops g.kind with
  | true =>
    intro hholds
    obtain ⟨hopen, hsilent⟩ := h (holds_offer_of_drops hdrops hholds).2
    rw [offer_snd_of_drops hdrops]
    exact ⟨hopen, by rwa [Suppression.silences_note_of_ne _ _ hne]⟩
  | false =>
    rw [offer_snd_of_not_drops hdrops]
    refine Faithful.send_of_ne (fun hholds => ?_) hne hends
    rw [Suppression.silences_note_of_ne _ _ hne]
    exact h (by simpa using hholds)

theorem Faithful.offer {g : Gesture} (h : Faithful f o isOpen)
    (hnext : f.next isOpen g.kind = some isOpen') : Faithful f (o.offer p g).2 isOpen' := by
  obtain ⟨hopener, hclosed, hopen⟩ | ⟨-, hends, hopen, -⟩ | ⟨hne, hends, hsame, -⟩ :=
    Family.next_cases hnext
  · intro hholds
    cases hdrops : o.suppression.drops g.kind with
    | true =>
      obtain ⟨hopen, -⟩ := h (holds_offer_of_drops hdrops hholds).2
      rw [hclosed] at hopen
      cases hopen
    | false =>
      rw [offer_snd_of_not_drops hdrops, suppression_send, hopener,
        Suppression.silences_note_opener]
      exact ⟨hopen, by simp [Suppression.sequenceConsumed_of_not_drops hdrops]⟩
  · intro hholds
    cases hdrops : o.suppression.drops g.kind with
    | true =>
      -- The end of a scroll would not have been dropped.
      obtain ⟨rfl, hheld⟩ := holds_offer_of_drops hdrops hholds
      have hterminating : g.kind.isTerminating = true := by
        cases hk : g.kind <;>
          simp_all [Family.ends, Gesture.Kind.endsScroll, Gesture.Kind.isTerminating]
      have hnot := Suppression.not_drops_of_isTerminating (h hheld).2
        (Family.antecedent_of_ends hends) hterminating
      rw [hdrops] at hnot
      cases hnot
    | false =>
      rw [offer_snd_of_not_drops hdrops, holds_send_of_ends hends] at hholds
      cases hholds
  · exact hsame ▸ h.offer_of_ne hne hends

theorem invariant_faithful (f : Family) :
    Invariant f fun o isOpen _ => Faithful f o isOpen where
  judging := Faithful.judging
  offer := fun _ => Faithful.offer
  closeAll := by
    intro o fates p h hholds
    cases f <;> cases hholds
  offerAlarm := fun _ h hk => h.offer_of_ne (ne_opener_of_alarm hk).1 (ne_opener_of_alarm hk).2
  sendAlarm := fun h hk => h.send_of_ne (ne_opener_of_alarm hk).1 (ne_opener_of_alarm hk).2

theorem Faithful.offerAll {gestures : List Gesture} (h : Faithful f o isOpen) (p : Packet)
    (hrun : f.run isOpen gestures = some isOpen') :
    Faithful f (o.offerAll p gestures).2 isOpen' :=
  (invariant_faithful f).offerAll [] h hrun

theorem Faithful.release {p : Packet} (h : Faithful f o isOpen)
    (hp : p.follow? f isOpen = some isOpen') : Faithful f (o.release p).2 isOpen' :=
  (invariant_faithful f).release [] h hp

-- Along any items whose packets are in order, what is on record stays faithful.
theorem faithful_replay {items : List Item} (h : Faithful f o isOpen)
    (hcourse : Packet.course f isOpen (packetsOf items) = some isOpen')
    (halarms : PressAlarms items) : Faithful f (o.replay items).2 isOpen' :=
  (invariant_faithful f).replay [] h (fun _ _ isOpen _ _ => faithful_empty f isOpen) hcourse halarms

end Outlet

end TouchGestures.Release
