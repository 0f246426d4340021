import TouchGestures.Proofs.Detector.History

namespace TouchGestures.Detector

variable {t : ContactTable} {time now deadline : Time} {alarm : Alarm} {rest : Alarms}

theorem Alarms.longPress_of_takeDue? {a : Alarms}
    (h : a.takeDue? now = some (.showPress, deadline, rest)) : rest.longPress = a.longPress := by
  obtain ⟨-, ⟨-, -, rfl, -⟩ | ⟨hlong, -⟩⟩ := takeDue?_eq_some_iff.mp h
  · rfl
  · cases hlong

theorem Alarms.exists_takeDue? {a : Alarms} (hnext : a.next? = some deadline)
    (hdue : deadline ≤ now) : ∃ first, a.takeDue? now = some first := by
  rw [← Option.ne_none_iff_exists']
  intro hnone
  obtain ⟨alarm, hset⟩ : ∃ alarm, a.deadline? alarm = some deadline := by
    obtain ⟨_ | s, _ | l⟩ := a
    · cases hnext
    · exact ⟨.longPress, hnext⟩
    · exact ⟨.showPress, hnext⟩
    · obtain rfl := Option.some.inj hnext
      obtain hleast | hleast := min_choice s l <;> rw [hleast]
      · exact ⟨.showPress, rfl⟩
      · exact ⟨.longPress, rfl⟩
  exact absurd (lt_of_takeDue?_eq_none hnone hset) (Int.not_lt.mpr hdue)

namespace Stream

variable {s s' s'' : Stream} {rounds : Nat}

-- The stream cannot complete as a tap any more, and waits for nothing.
structure CalledOff (s : Stream) : Prop where
  tap : s.tap ≠ .possible
  alarms : s.alarms = Alarms.off

-- As long as the stream can complete as a tap, it waits for the press to be long. After that
-- no alarm is set.
inductive Poised (s : Stream) : Prop
  | resting (htap : s.tap = .possible) (hlong : s.alarms.longPress.isSome = true)
    (hscrolling : s.scrolling = false)
  | calledOff (h : s.CalledOff)

theorem Poised.tap_eq_possible_iff (h : s.Poised) :
    s.tap = .possible ↔ s.alarms.longPress.isSome = true := by
  cases h with
  | resting htap hlong => simp [htap, hlong]
  | calledOff h => simp [h.tap, h.alarms, Alarms.off]

theorem Poised.alarms_eq_off (h : s.Poised) (htap : s.tap ≠ .possible) : s.alarms = Alarms.off := by
  cases h with
  | resting hpossible => exact absurd hpossible htap
  | calledOff h => exact h.alarms

theorem Poised.scrolling_eq_false (h : s.Poised) (htap : s.tap = .possible) :
    s.scrolling = false := by
  cases h with
  | resting _ _ hscrolling => exact hscrolling
  | calledOff h => exact absurd htap h.tap

-- Neither the tap nor what it waits for changes, and no scroll begins.
structure Stays (s s' : Stream) : Prop where
  tap : s'.tap = s.tap
  alarms : s'.alarms = s.alarms
  scrolling : s'.scrolling = s.scrolling

theorem Stays.trans (h : s.Stays s') (h' : s'.Stays s'') : s.Stays s'' where
  tap := h'.tap.trans h.tap
  alarms := h'.alarms.trans h.alarms
  scrolling := h'.scrolling.trans h.scrolling

theorem Stays.calledOff (h : s.Stays s') (hs : s.CalledOff) : s'.CalledOff where
  tap := h.tap ▸ hs.tap
  alarms := h.alarms.trans hs.alarms

theorem Stays.poised (h : s.Stays s') (hs : s.Poised) : s'.Poised := by
  cases hs with
  | resting htap hlong hscrolling =>
    exact .resting (h.tap.trans htap) (h.alarms ▸ hlong) (h.scrolling.trans hscrolling)
  | calledOff hs => exact .calledOff (h.calledOff hs)

theorem calledOff_cancelTap (s : Stream) (t : ContactTable) (time : Time) :
    (s.cancelTap t time).2.CalledOff := by
  unfold cancelTap
  split
  · exact ⟨by simp, rfl⟩
  · next hne => exact ⟨fun htap => hne htap, rfl⟩

theorem scroll_cases (s : Stream) (slop : Scalar) (t : ContactTable) (time : Time) :
    (s.scroll slop t time).2.CalledOff ∨
      s.Stays (s.scroll slop t time).2 ∧ (s.scrolling = false → (s.scroll slop t time).1 = []) := by
  unfold scroll beginScroll
  simp only []
  split
  · obtain ⟨htap, halarms⟩ := calledOff_cancelTap s t time
    exact .inl ⟨htap, halarms⟩
  · exact .inr ⟨⟨rfl, rfl, rfl⟩, fun hscrolling => by simp [updateScroll, hscrolling]⟩

theorem Poised.tap_of_takeDue? (h : s.Poised)
    (htaken : s.alarms.takeDue? now = some (alarm, deadline, rest)) : s.tap = .possible := by
  by_contra htap
  rw [h.alarms_eq_off htap, Alarms.takeDue?_off] at htaken
  cases htaken

-- An alarm that rings is heard, and leaves the stream waiting for the long press or, if that
-- is what it was, for nothing.
theorem Poised.ring (h : s.Poised) (htaken : s.alarms.takeDue? now = some (alarm, deadline, rest)) :
    ∃ g, ({ s with alarms := rest }.ring alarm deadline).1 = [g] ∧ g.kind = alarm.kind ∧
      (s.rung alarm deadline rest).Poised ∧
      ((s.rung alarm deadline rest).tap = .possible ↔ alarm = .showPress) := by
  cases h with
  | calledOff h =>
    rw [h.alarms, Alarms.takeDue?_off] at htaken
    cases htaken
  | resting htap hlong hscrolling =>
    cases alarm with
    | showPress =>
      have hrest := Alarms.longPress_of_takeDue? htaken
      refine ⟨_, by simp only [Stream.ring, htap]; rfl, rfl, ?_, ?_⟩
      · simp only [rung, Stream.ring, htap]
        exact .resting rfl (hrest ▸ hlong) hscrolling
      · simp [rung, Stream.ring, htap]
    | longPress =>
      refine ⟨_, by simp only [Stream.ring, htap]; rfl, rfl, ?_, ?_⟩
      · simp only [rung, Stream.ring, htap]
        exact .calledOff ⟨by simp, rfl⟩
      · simp [rung, Stream.ring, htap]

-- While nothing but show presses have rung, the stream can still complete as a tap.
theorem Poised.ringDue (h : s.Poised) (now : Time) (rounds : Nat) :
    (s.ringDue now rounds).2.Poised ∧ ((s.ringDue now rounds).2.tap = .possible →
      s.tap = .possible ∧ ∀ g ∈ (s.ringDue now rounds).1, g.kind = .showPress) := by
  induction rounds generalizing s with
  | zero => exact ⟨h, fun htap => ⟨htap, by simp [Stream.ringDue]⟩⟩
  | succ rounds ih =>
    cases htaken : s.alarms.takeDue? now with
    | none =>
      rw [ringDue_of_takeDue?_eq_none htaken]
      exact ⟨h, fun htap => ⟨htap, by simp⟩⟩
    | some first =>
      obtain ⟨alarm, deadline, rest⟩ := first
      obtain ⟨g, hfirst, hkind, hrung, halarm⟩ := h.ring htaken
      obtain ⟨hothers, htap⟩ := ih hrung
      rw [ringDue_of_takeDue? htaken, hfirst]
      refine ⟨hothers, fun hpossible => ?_⟩
      obtain ⟨hpossible, hshown⟩ := htap hpossible
      obtain rfl := halarm.mp hpossible
      exact ⟨h.tap_of_takeDue? htaken, by simpa [hkind, Alarm.kind] using hshown⟩

end Stream

variable {d d' : Detector} {s s' : Stream} {gestures : List Gesture} {change : Change}

def Poised (d : Detector) : Prop := ∀ s ∈ d.stream, s.Poised

theorem poised_of_stream_eq_none (h : d.stream = none) : d.Poised := by
  simp [Poised, h]

-- The stream under way, if there is one, can complete as a tap.
def Tappable (d : Detector) : Prop := ∃ s, d.stream = some s ∧ s.tap = .possible

theorem Poised.longPress_iff (h : d.Poised) : d.alarms.longPress.isSome = true ↔ d.Tappable := by
  unfold alarms Tappable
  cases hs : d.stream with
  | none => simp [Alarms.off]
  | some s => simp [(h s hs).tap_eq_possible_iff]

theorem Poised.alarms_eq_off (h : d.Poised) (htap : ¬d.Tappable) : d.alarms = Alarms.off := by
  unfold alarms
  cases hs : d.stream with
  | none => rfl
  | some s => exact (h s hs).alarms_eq_off fun hpossible => htap ⟨s, hs, hpossible⟩

theorem nextDeadline_eq (d : Detector) : d.nextDeadline = d.alarms.next? := by
  unfold nextDeadline alarms
  cases d.stream <;> rfl

-- Something rings once the earliest deadline has come.
theorem Poised.tick_ne_nil (h : d.Poised) (hnext : d.nextDeadline = some deadline)
    (hdue : deadline ≤ now) : (d.tick now).1 ≠ [] := by
  obtain ⟨s, hs, halarms⟩ := Option.bind_eq_some_iff.mp hnext
  obtain ⟨⟨alarm, time, rest⟩, htaken⟩ := Alarms.exists_takeDue? halarms hdue
  obtain ⟨g, hring, -⟩ := (h s hs).ring htaken
  rw [tick_of_stream_eq_some hs, Stream.tick, Stream.ringDue_of_takeDue? htaken, hring]
  simp

theorem pinch_cases (d : Detector) (s : Stream) (t : ContactTable) (time : Time) :
    ∃ s', (d.pinch s t time).2.stream = some s' ∧
      (s'.CalledOff ∨ s.Stays s' ∧ (t.count < 2 → (d.pinch s t time).1 = [])) := by
  have hsame : s.Stays s := ⟨rfl, rfl, rfl⟩
  unfold pinch
  simp only []
  split
  · next hpinch =>
    have htwo : ¬t.count < 2 := by simp at hpinch; omega
    split
    · split
      · obtain ⟨htap, halarms⟩ := Stream.calledOff_cancelTap s t time
        exact ⟨_, rfl, .inl ⟨htap, halarms⟩⟩
      · exact ⟨s, rfl, .inr ⟨hsame, fun _ => rfl⟩⟩
    · split
      · exact ⟨s, rfl, .inr ⟨hsame, fun hone => absurd hone htwo⟩⟩
      · exact ⟨s, rfl, .inr ⟨hsame, fun _ => rfl⟩⟩
  · exact ⟨s, rfl, .inr ⟨hsame, fun _ => rfl⟩⟩

theorem move_cases (d : Detector) (s : Stream) (t : ContactTable) (time : Time) :
    ∃ s', (d.move s t time).2.stream = some s' ∧ (s'.CalledOff ∨
      s.Stays s' ∧ (s.scrolling = false → t.count < 2 → (d.move s t time).1 = [])) := by
  obtain ⟨s', hs', hpinched⟩ := pinch_cases d (s.scroll d.settings.thresholds.touchSlop t time).2
    t time
  refine ⟨s', hs', ?_⟩
  obtain hoff | ⟨hstays, hnothing⟩ := hpinched
  · exact .inl hoff
  · obtain hoff | ⟨hstill, hquiet⟩ := s.scroll_cases d.settings.thresholds.touchSlop t time
    · exact .inl (hstays.calledOff hoff)
    · refine .inr ⟨hstill.trans hstays, fun hscrolling hone => ?_⟩
      simp only [move, hquiet hscrolling, hnothing hone, List.append_nil]

-- A touch that neither begins nor ends the stream calls off the tap, or does nothing about
-- it. If it does nothing about it, the release of one contact among several is the only one
-- to tell anything of a stream that does not scroll.
theorem handle_cases (hs : d.stream = some s) (hbegan : change.action ≠ .began)
    (hlasts : ¬(change.action = .ended ∨ change.action = .cancelled)) :
    ∃ s', (d.handle t change).2.stream = some s' ∧ (s'.CalledOff ∨
      change.action ≠ .joined ∧ s.Stays s' ∧ (change.action = .moved → s.scrolling = false →
        t.count < 2 → (d.handle t change).1 = [])) := by
  unfold handle
  rw [hs]
  cases haction : change.action with
  | began => exact absurd haction hbegan
  | joined =>
    obtain ⟨htap, halarms⟩ := Stream.calledOff_cancelTap s t change.time
    exact ⟨_, rfl, .inl ⟨htap, halarms⟩⟩
  | moved =>
    obtain ⟨s', hs', hcases⟩ := move_cases d s t change.time
    exact ⟨s', hs', hcases.imp id fun h => ⟨by simp, h.1, fun _ => h.2⟩⟩
  | left => exact ⟨_, rfl, .inr ⟨by simp, ⟨rfl, rfl, rfl⟩, fun hmoved => by cases hmoved⟩⟩
  | ended => exact absurd (.inl haction) hlasts
  | cancelled => exact absurd (.inr haction) hlasts

theorem poised_begin (h : d.Poised) (t : ContactTable) (time : Time) :
    (d.begin t time).2.Poised := by
  unfold begin
  split
  · exact h
  · intro s hs
    obtain rfl := Option.some.inj hs
    exact .resting rfl rfl rfl

theorem poised_handle (h : d.Poised) (t : ContactTable) (change : Change) :
    (d.handle t change).2.Poised := by
  by_cases hbegan : change.action = .began
  · simp only [handle, hbegan]
    exact poised_begin h t change.time
  · by_cases hcloses : change.action = .ended ∨ change.action = .cancelled
    · exact poised_of_stream_eq_none (stream_handle_of_closes hcloses)
    · cases hs : d.stream with
      | none =>
        rw [handle_of_stream_eq_none hs hbegan]
        exact h
      | some s =>
        obtain ⟨s', hs', hcases⟩ := handle_cases (t := t) hs hbegan hcloses
        intro s'' hs''
        obtain rfl := Option.some.inj (hs'.symm.trans hs'')
        obtain hoff | ⟨-, hstays, -⟩ := hcases
        · exact .calledOff hoff
        · exact hstays.poised (h s hs)

-- Whatever a detector is asked, alarms are set only while the stream can complete as a tap.
theorem poised_perform (h : d.Poised) (op : Op) : (d.perform op).2.Poised := by
  have hdoubleTap : ∀ allowed, ∀ s ∈ d.stream.map fun s : Stream =>
      { s with doubleTap := s.doubleTap && allowed }, s.Poised := by
    intro allowed s hs
    obtain ⟨s₀, hs₀, rfl⟩ := Option.map_eq_some_iff.mp hs
    have hstays : s₀.Stays { s₀ with doubleTap := s₀.doubleTap && allowed } := ⟨rfl, rfl, rfl⟩
    exact hstays.poised (h s₀ hs₀)
  cases op with
  | touch t =>
    obtain ⟨hsame, -⟩ | ⟨change, -, hhandle⟩ := d.perform_touch_cases t
    · rwa [hsame]
    · rw [hhandle]
      exact poised_handle (d := { d with lastTime := some change.time }) h t change
  | tick now =>
    cases hs : d.stream with
    | none =>
      rw [perform, tick_of_stream_eq_none hs]
      exact h
    | some s =>
      rw [perform, tick_of_stream_eq_some hs]
      intro s' hs'
      obtain rfl := Option.some.inj hs'
      exact ((h s hs).ringDue now 2).1
  | reset => exact poised_of_stream_eq_none rfl
  | configure settings => exact hdoubleTap settings.doubleTap
  | setDoubleTap enabled =>
    intro s hs
    exact hdoubleTap enabled s ((stream_setDoubleTap d enabled).symm.trans hs)

theorem poised_performAll (h : d.Poised) (ops : List Op) : (d.performAll ops).Poised := by
  induction ops generalizing d with
  | nil => exact h
  | cons op rest ih => exact ih (poised_perform h op)

end TouchGestures.Detector
