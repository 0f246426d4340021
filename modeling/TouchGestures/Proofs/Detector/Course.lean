import TouchGestures.Proofs.Detector.Family
import TouchGestures.Proofs.Gesture.Grammar

namespace TouchGestures.Detector

open Gesture (Family Grammar Kind outline stages)

variable {t : ContactTable} {time now : Time} {gestures : List Gesture}

theorem Alarms.takeDue?_eq_some {a rest : Alarms} {alarm : Alarm} {deadline : Time}
    (h : a.takeDue? now = some (alarm, deadline, rest)) :
    (alarm = .showPress ∧ a.showPress ≠ none ∧ rest.showPress = none) ∨
      (alarm = .longPress ∧ rest.showPress = a.showPress) := by
  unfold takeDue? at h
  split at h
  · next hs _ =>
    have hset := (Option.filter_eq_some_iff.mp hs).1
    split at h <;> cases h
    · exact .inl ⟨rfl, by simp [hset], rfl⟩
    · exact .inr ⟨rfl, rfl⟩
  · next hs _ =>
    have hset := (Option.filter_eq_some_iff.mp hs).1
    cases h
    exact .inl ⟨rfl, by simp [hset], rfl⟩
  · cases h
    exact .inr ⟨rfl, rfl⟩
  · cases h

namespace Stream

variable {s s' s'' : Stream}

-- Nothing scrolls before the tap was called off.
theorem Sound.scrolling_eq_false (hs : s.Sound) (htap : s.tap ≠ .off) : s.scrolling = false := by
  by_contra hscrolling
  exact htap (hs (by simpa using hscrolling))

def reached (s : Stream) (shown : Bool) : List Kind :=
  outline shown (s.tap = .long) s.scrolling false

-- The gestures so far have led the stream to where it is. Once the press was shown, that
-- is not waited for any more.
structure Course (s : Stream) (gestures : List Gesture) : Prop where
  first : ∃ g rest, gestures = g :: rest ∧ g.kind = .tapDown
  isOpen : ∀ f : Family, f.run false gestures = some (s.isOpen f)
  sound : s.Sound
  stages : ∃ shown, stages gestures = s.reached shown ∧ (shown = true → s.alarms.showPress = none)

-- The stages that some gestures add lead from one stream to another.
structure Continues (s : Stream) (gestures : List Gesture) (s' : Stream) : Prop where
  stages : ∀ shown, s'.reached shown = s.reached shown ++ stages gestures
  showPress : s.alarms.showPress = none → s'.alarms.showPress = none

theorem Continues.trans {others : List Gesture} (h : s.Continues gestures s')
    (h' : s'.Continues others s'') : s.Continues (gestures ++ others) s'' where
  stages := fun shown => by rw [h'.stages, h.stages, Gesture.stages_append, List.append_assoc]
  showPress := h'.showPress ∘ h.showPress

-- What reaches no stage leaves the course of the stream as it was.
theorem continues_of_same (hstages : Gesture.stages gestures = [])
    (hlong : s'.tap = .long ↔ s.tap = .long) (hscrolling : s'.scrolling = s.scrolling)
    (halarms : s.alarms.showPress = none → s'.alarms.showPress = none) :
    s.Continues gestures s' where
  stages := fun shown => by simp [reached, hlong, hscrolling, hstages]
  showPress := halarms

theorem continues_restart (s : Stream) (time : Time) (focus : Point) :
    s.Continues [] (s.restart time focus) :=
  continues_of_same rfl Iff.rfl rfl id

theorem continues_cancelTap (s : Stream) (t : ContactTable) (time : Time) :
    s.Continues (s.cancelTap t time).1 (s.cancelTap t time).2 := by
  unfold cancelTap
  split
  · next htap =>
    refine continues_of_same ?_ (by simp [htap]) rfl fun _ => rfl
    cases t.acting? <;> simp [Gesture.Payload.kind, Kind.isStage]
  · exact continues_of_same rfl Iff.rfl rfl fun _ => rfl

theorem continues_beginScroll (s : Stream) (slop : Scalar) (t : ContactTable) (time : Time) :
    s.Continues (s.beginScroll slop t time).1 (s.beginScroll slop t time).2 := by
  unfold beginScroll
  simp only []
  split
  · next h =>
    simp only [Bool.and_eq_true, Bool.not_eq_true', decide_eq_true_eq] at h
    obtain ⟨⟨hscrolling, hlong⟩, -⟩ := h
    have hoff : (s.cancelTap t time).2.tap = .off := tap_cancelTap_of_ne_long hlong
    have hstill := scrolling_cancelTap s t time
    refine (continues_cancelTap s t time).trans ⟨fun shown => ?_, id⟩
    simp [reached, outline, hoff, hstill, hscrolling, Gesture.Payload.kind, Kind.isStage]
  · exact continues_of_same rfl Iff.rfl rfl id

theorem stages_updateScroll (s : Stream) (t : ContactTable) (time : Time) :
    Gesture.stages (s.updateScroll t time) = [] := by
  unfold updateScroll
  simp only []
  split <;> simp [Gesture.Payload.kind, Kind.isStage]

theorem continues_scroll (s : Stream) (slop : Scalar) (t : ContactTable) (time : Time) :
    s.Continues (s.scroll slop t time).1 (s.scroll slop t time).2 := by
  have hupdate : ∀ s : Stream,
      s.Continues (s.updateScroll t time) (s.follow time t.focus.location) := fun s =>
    continues_of_same (stages_updateScroll s t time) Iff.rfl rfl id
  exact (continues_beginScroll s slop t time).trans (hupdate _)

theorem Course.first_append (h : s.Course gestures) (added : List Gesture) :
    ∃ g rest, gestures ++ added = g :: rest ∧ g.kind = .tapDown := by
  obtain ⟨g, rest, rfl, hg⟩ := h.first
  exact ⟨g, rest ++ added, rfl, hg⟩

-- What a step adds to a stream keeps its course.
theorem Course.continue {added : List Gesture} (h : s.Course gestures)
    (hadded : s.Continues added s')
    (hopen : ∀ f : Family, f.run (s.isOpen f) added = some (s'.isOpen f)) (hsound : s'.Sound) :
    s'.Course (gestures ++ added) where
  first := h.first_append added
  isOpen := fun f => by rw [Family.run_append, h.isOpen f, Option.bind_some, hopen f]
  sound := hsound
  stages := by
    obtain ⟨shown, hstages, hshown⟩ := h.stages
    refine ⟨shown, ?_, fun hs => hadded.showPress (hshown hs)⟩
    rw [Gesture.stages_append, hstages, hadded.stages]

-- A press that is shown or found to be long leaves what is open as it is.
theorem run_press {f : Family} {g : Gesture} (htap : s.tap = .possible)
    (hg : g.kind = .showPress ∨ g.kind = .longPress) :
    f.run (s.isOpen f) [g] = some (s.isOpen f) := by
  rw [Family.run_singleton]
  rcases hg with hg | hg <;> rw [hg] <;> cases f <;>
    simp [isOpen, htap, Family.next, Family.opener, Family.ends, Kind.endsTap, Kind.endsScroll,
      Kind.antecedent]

-- An alarm that rings is heard while the stream can complete as a tap, and then reaches
-- the next stage.
theorem Course.ring {alarm : Alarm} {deadline : Time} {rest : Alarms} (h : s.Course gestures)
    (htaken : s.alarms.takeDue? now = some (alarm, deadline, rest)) :
    ({ s with alarms := rest }.ring alarm deadline).2.Course
      (gestures ++ ({ s with alarms := rest }.ring alarm deadline).1) := by
  obtain ⟨shown, hstages, hshown⟩ := h.stages
  have hrings := rings_ring { s with alarms := rest } alarm deadline
  refine ⟨h.first_append _, fun f => ?_, hrings.sound h.sound, ?_⟩
  · rw [Family.run_append, h.isOpen f, Option.bind_some, hrings.isOpen f]
    unfold Stream.ring
    split
    · next htap => exact run_press (s := { s with alarms := rest }) htap (.inl rfl)
    · next htap => exact run_press (s := { s with alarms := rest }) htap (.inr rfl)
    · rfl
  · have hstill : s.tap = .possible → s.scrolling = false := fun htap =>
      h.sound.scrolling_eq_false (by simp [htap])
    unfold Stream.ring
    split
    · next htap =>
      obtain ⟨-, hset, hrest⟩ | ⟨halarm, -⟩ := Alarms.takeDue?_eq_some htaken
      · have hnew : shown = false := by
          by_contra hwas
          exact hset (hshown (by simpa using hwas))
        refine ⟨true, ?_, fun _ => hrest⟩
        have htap : s.tap = .possible := htap
        simp [hstages, reached, outline, hnew, htap, hstill htap, Gesture.kind,
          Gesture.Payload.kind, Kind.isStage]
      · cases halarm
    · next htap =>
      refine ⟨shown, ?_, fun _ => rfl⟩
      have htap : s.tap = .possible := htap
      simp [hstages, reached, outline, htap, hstill htap, Gesture.kind, Gesture.Payload.kind,
        Kind.isStage]
    · refine ⟨shown, by simpa [reached] using hstages, fun hs => ?_⟩
      obtain ⟨-, -, hrest⟩ | ⟨-, hrest⟩ := Alarms.takeDue?_eq_some htaken
      · exact hrest
      · exact hrest.trans (hshown hs)

theorem Course.ringDue (h : s.Course gestures) (now : Time) (rounds : Nat) :
    (s.ringDue now rounds).2.Course (gestures ++ (s.ringDue now rounds).1) := by
  induction rounds generalizing s gestures with
  | zero => simpa [Stream.ringDue] using h
  | succ rounds ih =>
    unfold Stream.ringDue
    split
    · simpa using h
    · next alarm deadline rest htaken =>
      have hothers := ih (h.ring htaken)
      rwa [List.append_assoc] at hothers

end Stream

variable {d d' : Detector} {s : Stream} {change : Change}

theorem sound_of_stream_eq_some (hd : d.stream = some s) (hs : s.Sound) : d.Sound := by
  intro s' hs'
  rw [hd] at hs'
  cases hs'
  exact hs

theorem exists_course_begin (ht : t.acting?.isSome) (hd : d.stream = none) (time : Time) :
    ∃ s, (d.begin t time).2.stream = some s ∧ s.Course (d.begin t time).1 := by
  obtain ⟨contact, hcontact⟩ := Option.isSome_iff_exists.mp ht
  have hfollows : d.Follows (d.begin t time).1 (d.begin t time).2 := follows_begin ht hd
  have hrun : ∀ f : Family,
      f.run false (d.begin t time).1 = some ((d.begin t time).2.isOpen f) := by
    intro f
    rw [← isOpen_of_stream_eq_none hd, hfollows.run f]
  have hsound := hfollows.sound
  unfold begin at hrun hsound ⊢
  simp only [hcontact] at hrun hsound ⊢
  refine ⟨_, rfl, ⟨_, _, rfl, rfl⟩, hrun, hsound _ rfl, false, ?_, by simp⟩
  simp [Stream.reached, outline, Gesture.Payload.kind, Kind.isStage]

theorem exists_continues_join (d : Detector) (s : Stream) (t : ContactTable) (time : Time) :
    ∃ s', (d.join s t time).2.stream = some s' ∧ s.Continues (d.join s t time).1 s' := by
  have hcancel := Stream.continues_cancelTap s t time
  have hrestart := hcancel.trans (Stream.continues_restart _ time t.focus.location)
  rw [List.append_nil] at hrestart
  exact ⟨_, rfl, hrestart⟩

theorem exists_continues_pinch (d : Detector) (s : Stream) (t : ContactTable) (time : Time) :
    ∃ s', (d.pinch s t time).2.stream = some s' ∧ s.Continues (d.pinch s t time).1 s' := by
  have hsame : s.Continues [] s := Stream.continues_of_same rfl Iff.rfl rfl id
  unfold pinch
  simp only []
  split
  · split
    · split
      · refine ⟨_, rfl, (Stream.continues_cancelTap s t time).trans ?_⟩
        exact Stream.continues_of_same (by simp [Gesture.Payload.kind, Kind.isStage]) Iff.rfl rfl id
      · exact ⟨s, rfl, hsame⟩
    · split
      · refine ⟨s, rfl, ?_⟩
        exact Stream.continues_of_same (by simp [Gesture.Payload.kind, Kind.isStage]) Iff.rfl rfl id
      · exact ⟨s, rfl, hsame⟩
  · exact ⟨s, rfl, hsame⟩

theorem exists_continues_move (d : Detector) (s : Stream) (t : ContactTable) (time : Time) :
    ∃ s', (d.move s t time).2.stream = some s' ∧ s.Continues (d.move s t time).1 s' := by
  have hscroll := Stream.continues_scroll s d.settings.thresholds.touchSlop t time
  obtain ⟨s', hs', hpinch⟩ := exists_continues_pinch d
    (s.scroll d.settings.thresholds.touchSlop t time).2 t time
  exact ⟨s', hs', hscroll.trans hpinch⟩

theorem exists_continues_leave (d : Detector) (s : Stream) (t : ContactTable) (time : Time) :
    ∃ s', (d.leave s t time).2.stream = some s' ∧ s.Continues (d.leave s t time).1 s' := by
  unfold leave
  simp only []
  refine ⟨_, rfl, Stream.continues_of_same ?_ Iff.rfl rfl id⟩
  split <;> simp [Gesture.Payload.kind, Kind.isStage]

-- A change that neither begins nor ends a stream goes on with it.
theorem exists_continues_handle (hd : d.stream = some s) (hbegan : change.action ≠ .began)
    (hended : change.action ≠ .ended) (hcancelled : change.action ≠ .cancelled) :
    ∃ s', (d.handle t change).2.stream = some s' ∧ s.Continues (d.handle t change).1 s' := by
  unfold handle
  rw [hd]
  cases haction : change.action with
  | began => exact absurd haction hbegan
  | joined => exact exists_continues_join d s t change.time
  | moved => exact exists_continues_move d s t change.time
  | left => exact exists_continues_leave d s t change.time
  | ended => exact absurd haction hended
  | cancelled => exact absurd haction hcancelled

-- The last release is a long tap just if the press was long.
theorem stages_finish (ht : t.acting?.isSome) (hs : s.Sound) (d : Detector) (time : Time) :
    stages (d.finish s t time).1 = if s.tap = .long then [.longTap] else [] := by
  obtain ⟨contact, hcontact⟩ := Option.isSome_iff_exists.mp ht
  have hpinch : ∀ place : Place,
      stages (if s.pinching then [gestureAt t time .pinchEnd place] else []) = [] := by
    intro place
    split <;> simp [Gesture.Payload.kind, Kind.isStage]
  unfold finish
  simp only [hcontact]
  split
  · next hscrolling =>
    have hends := kind_releaseScroll d.settings.thresholds
      ((s.velocity.add time t.focus.location).velocity time)
    have hstage : ∀ k : Kind, k.endsScroll = true → k.isStage = false := by
      intro k hk
      cases k <;> simp_all [Kind.endsScroll, Kind.isStage]
    simp [hpinch, hs hscrolling, hstage _ hends]
  · split
    · next htap => simp [hpinch, htap, Gesture.Payload.kind, Kind.isStage]
    · next htap => split <;> simp [hpinch, htap, Gesture.Payload.kind, Kind.isStage]
    · next htap => simp [hpinch, htap]

theorem stages_abort (d : Detector) (s : Stream) (t : ContactTable) (time : Time) :
    stages (d.abort s t time).1 = [] := by
  have hnone : ∀ (p : Prop) [Decidable p] (payload : Gesture.Payload) (place : Place),
      payload.kind.isStage = false →
        stages (if p then [gestureAt t time payload place] else []) = [] := by
    intro p _ payload place hpayload
    split <;> simp [hpayload]
  unfold abort
  simp only [Gesture.stages_append, List.append_eq_nil_iff]
  refine ⟨⟨hnone _ _ _ rfl, hnone _ _ _ rfl⟩, ?_⟩
  split
  · rfl
  · cases t.acting? <;> simp [Gesture.Payload.kind, Kind.isStage]

-- A stream that closes has taken its course to the end.
theorem grammar_handle (ht : t.acting?.isSome) (hd : d.stream = some s) (h : s.Course gestures)
    (hcloses : change.action = .ended ∨ change.action = .cancelled) :
    Grammar (gestures ++ (d.handle t change).1) (change.action = .ended) := by
  have hfollows := follows_handle change ht (sound_of_stream_eq_some hd h.sound)
    (by rcases hcloses with h | h <;> simp [h])
  have hnone := stream_handle_of_closes (d := d) (t := t) hcloses
  obtain ⟨shown, hstages, -⟩ := h.stages
  obtain ⟨g, rest, hgestures, hg⟩ := h.first_append (d.handle t change).1
  have hclosed : ∀ f : Family, f.run false (g :: rest) = some false := by
    intro f
    have hrun := hfollows.run f
    rw [isOpen_of_stream_eq_some hd, isOpen_of_stream_eq_none hnone] at hrun
    rw [← hgestures, Family.run_append, h.isOpen f, Option.bind_some, hrun]
  have hadded : stages (d.handle t change).1 =
      if s.tap = .long ∧ change.action = .ended then [.longTap] else [] := by
    unfold handle
    rcases hcloses with haction | haction
    · simp only [haction, hd, and_true]
      exact stages_finish ht h.sound d change.time
    · simp only [haction, hd]
      rw [stages_abort]
      simp
  have hall : stages (g :: rest) =
      outline shown (s.tap = .long) s.scrolling (change.action = .ended) := by
    rw [← hgestures, Gesture.stages_append, hstages, hadded, Stream.reached]
    simp [outline]
  have hstill : decide (s.tap = .long) = true → s.scrolling = false := fun hlong =>
    h.sound.scrolling_eq_false (by simp [of_decide_eq_true hlong])
  rw [hgestures]
  exact Grammar.of_outline hg hclosed hall hstill

end TouchGestures.Detector
