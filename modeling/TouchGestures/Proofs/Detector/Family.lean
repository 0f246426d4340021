import TouchGestures.Detector.Touch
import TouchGestures.Proofs.Gesture.Family

namespace TouchGestures.Detector

open Gesture (Family)

variable {f : Family} {t : ContactTable} {time : Time}

@[simp] theorem kind_gestureAt (t : ContactTable) (time : Time) (payload : Gesture.Payload)
    (place : Place) : (gestureAt t time payload place).kind = payload.kind := rfl

namespace Stream

variable {s : Stream}

-- Whether a family is open in the stream. The tap is until it has ended in one way or
-- another, so it stays open in a long press.
def isOpen (s : Stream) : Family → Bool
  | .tap => s.tap ≠ .off
  | .scroll => s.scrolling
  | .pinch => s.pinching

-- A scroll only begins after the tap was called off.
def Sound (s : Stream) : Prop := s.scrolling = true → s.tap = .off

theorem run_cancelTap (ht : t.acting?.isSome) :
    f.run (s.isOpen f) (s.cancelTap t time).1 = some ((s.cancelTap t time).2.isOpen f) := by
  obtain ⟨contact, hcontact⟩ := Option.isSome_iff_exists.mp ht
  unfold cancelTap
  split
  · next h =>
    cases f <;>
      simp [hcontact, isOpen, h, Family.next, Family.opener, Family.ends, Gesture.Payload.kind,
        Gesture.Kind.endsTap, Gesture.Kind.endsScroll, Gesture.Kind.antecedent]
  · cases f <;> simp [isOpen]

theorem scrolling_cancelTap (s : Stream) (t : ContactTable) (time : Time) :
    (s.cancelTap t time).2.scrolling = s.scrolling := by
  unfold cancelTap
  split <;> rfl

theorem tap_cancelTap_of_ne_long (h : s.tap ≠ .long) : (s.cancelTap t time).2.tap = .off := by
  unfold cancelTap
  cases htap : s.tap <;> simp_all

theorem tap_cancelTap_of_eq_off (h : s.tap = .off) : (s.cancelTap t time).2.tap = .off :=
  tap_cancelTap_of_ne_long (by simp [h])

theorem Sound.cancelTap (hs : s.Sound) : (s.cancelTap t time).2.Sound := by
  intro h
  rw [scrolling_cancelTap] at h
  exact tap_cancelTap_of_eq_off (hs h)

theorem isOpen_restart (s : Stream) (time : Time) (focus : Point) :
    (s.restart time focus).isOpen f = s.isOpen f := by
  cases f <;> rfl

theorem isOpen_follow (s : Stream) (time : Time) (focus : Point) :
    (s.follow time focus).isOpen f = s.isOpen f := by
  cases f <;> rfl

theorem run_beginScroll (ht : t.acting?.isSome) (hs : s.Sound) (slop : Scalar) (time : Time) :
    f.run (s.isOpen f) (s.beginScroll slop t time).1 =
        some ((s.beginScroll slop t time).2.isOpen f) ∧
      (s.beginScroll slop t time).2.Sound := by
  unfold beginScroll
  simp only []
  split
  · next h =>
    simp only [Bool.and_eq_true, Bool.not_eq_true', decide_eq_true_eq] at h
    obtain ⟨⟨hscrolling, hlong⟩, _⟩ := h
    have htap : (s.cancelTap t time).2.tap = .off := tap_cancelTap_of_ne_long hlong
    have hstill := scrolling_cancelTap s t time
    refine ⟨?_, fun _ => htap⟩
    simp only [Family.run_append, run_cancelTap ht, Option.bind_some, Family.run_singleton,
      kind_gestureAt]
    cases f <;>
      simp [isOpen, htap, hstill, hscrolling, Family.next, Family.opener, Family.ends,
        Gesture.Payload.kind, Gesture.Kind.endsTap, Gesture.Kind.antecedent]
  · exact ⟨rfl, hs⟩

theorem run_updateScroll (s : Stream) (t : ContactTable) (time : Time) :
    f.run (s.isOpen f) (s.updateScroll t time) = some (s.isOpen f) := by
  unfold updateScroll
  simp only []
  split
  · next h =>
    simp only [Bool.and_eq_true] at h
    cases f <;>
      simp [isOpen, h.1, Family.next, Family.opener, Family.ends, Gesture.Payload.kind,
        Gesture.Kind.endsTap, Gesture.Kind.endsScroll, Gesture.Kind.antecedent]
  · rfl

theorem run_scroll (ht : t.acting?.isSome) (hs : s.Sound) (slop : Scalar) (time : Time) :
    f.run (s.isOpen f) (s.scroll slop t time).1 = some ((s.scroll slop t time).2.isOpen f) ∧
      (s.scroll slop t time).2.Sound := by
  obtain ⟨hrun, hsound⟩ := run_beginScroll (f := f) ht hs slop time
  unfold scroll
  simp only []
  refine ⟨?_, hsound⟩
  rw [Family.run_append, hrun, Option.bind_some, run_updateScroll, isOpen_follow]

end Stream

variable {d d' : Detector} {s : Stream} {gestures : List Gesture}

-- Whether a family is open in the stream under way.
def isOpen (d : Detector) (f : Family) : Bool := d.stream.any (·.isOpen f)

def Sound (d : Detector) : Prop := ∀ s ∈ d.stream, s.Sound

theorem isOpen_of_stream_eq_none (h : d.stream = none) : d.isOpen f = false := by
  simp [isOpen, h]

theorem isOpen_of_stream_eq_some (h : d.stream = some s) : d.isOpen f = s.isOpen f := by
  simp [isOpen, h]

theorem sound_of_stream_eq_none (h : d.stream = none) : d.Sound := by
  simp [Sound, h]

-- What a handler detects leads from the families that were open to those that are.
structure Follows (d : Detector) (gestures : List Gesture) (d' : Detector) : Prop where
  run : ∀ f : Family, f.run (d.isOpen f) gestures = some (d'.isOpen f)
  sound : d'.Sound

theorem follows_begin (ht : t.acting?.isSome) (hd : d.stream = none) :
    d.Follows (d.begin t time).1 (d.begin t time).2 := by
  obtain ⟨contact, hcontact⟩ := Option.isSome_iff_exists.mp ht
  unfold begin
  simp only [hcontact]
  refine ⟨fun f => ?_, ?_⟩
  · rw [isOpen_of_stream_eq_none hd]
    cases f <;>
      simp [isOpen, Stream.isOpen, Family.next, Family.opener, Family.ends, Gesture.Payload.kind,
        Gesture.Kind.endsScroll, Gesture.Kind.antecedent]
  · simp [Sound, Stream.Sound]

theorem follows_join (ht : t.acting?.isSome) (hd : d.stream = some s) (hs : s.Sound) :
    d.Follows (d.join s t time).1 (d.join s t time).2 := by
  unfold join
  simp only []
  refine ⟨fun f => ?_, ?_⟩
  · rw [isOpen_of_stream_eq_some hd, Stream.run_cancelTap ht]
    simp [isOpen, Stream.isOpen_restart]
  · intro s' hs'
    cases hs'
    exact hs.cancelTap

theorem follows_pinch (ht : t.acting?.isSome) (hs : s.Sound) (time : Time) :
    (∀ f : Family, f.run (s.isOpen f) (d.pinch s t time).1 = some ((d.pinch s t time).2.isOpen f)) ∧
      (d.pinch s t time).2.Sound := by
  unfold pinch
  simp only []
  have hsame : ∀ d' : Detector, d'.stream = some s →
      (∀ f : Family, f.run (s.isOpen f) [] = some (d'.isOpen f)) ∧ d'.Sound := by
    intro d' hd'
    refine ⟨fun f => by rw [isOpen_of_stream_eq_some hd']; rfl, ?_⟩
    intro s' hs'
    rw [hd'] at hs'
    cases hs'
    exact hs
  split
  · split
    · next hpinching =>
      split
      · refine ⟨fun f => ?_, ?_⟩
        · rw [Family.run_append, Stream.run_cancelTap ht]
          have hstill : (s.cancelTap t time).2.pinching = s.pinching := by
            unfold Stream.cancelTap
            split <;> rfl
          cases f <;>
            simp_all [isOpen, Stream.isOpen, Family.next, Family.opener, Family.ends,
              Gesture.Payload.kind, Gesture.Kind.endsTap, Gesture.Kind.endsScroll,
              Gesture.Kind.antecedent]
        · intro s' hs'
          cases hs'
          exact hs.cancelTap
      · exact hsame _ rfl
    · next hpinching =>
      split
      · refine ⟨fun f => ?_, (hsame _ rfl).2⟩
        cases f <;>
          simp_all [isOpen, Stream.isOpen, Family.next, Family.opener, Family.ends,
            Gesture.Payload.kind, Gesture.Kind.endsTap, Gesture.Kind.endsScroll,
            Gesture.Kind.antecedent]
      · exact hsame _ rfl
  · exact hsame _ rfl

theorem follows_move (ht : t.acting?.isSome) (hd : d.stream = some s) (hs : s.Sound) :
    d.Follows (d.move s t time).1 (d.move s t time).2 := by
  unfold move
  simp only []
  have hscroll := fun f =>
    Stream.run_scroll (f := f) ht hs d.settings.thresholds.touchSlop time
  obtain ⟨hrun, hsound⟩ := follows_pinch (d := d) ht (hscroll .tap).2 time
  refine ⟨fun f => ?_, hsound⟩
  rw [isOpen_of_stream_eq_some hd, Family.run_append, (hscroll f).1, Option.bind_some, hrun f]

theorem follows_leave (hd : d.stream = some s) (hs : s.Sound) :
    d.Follows (d.leave s t time).1 (d.leave s t time).2 := by
  unfold leave
  simp only []
  generalize t.count - 1 = remaining
  refine ⟨fun f => ?_, ?_⟩
  · rw [isOpen_of_stream_eq_some hd]
    by_cases hfew : remaining < 2
    · have hnot : ¬2 ≤ remaining := by omega
      cases f <;> cases hpinching : s.pinching <;>
        simp [isOpen, Stream.isOpen, Stream.restart, Family.next, Family.opener, Family.ends,
          Gesture.Payload.kind, Gesture.Kind.endsTap, Gesture.Kind.endsScroll,
          Gesture.Kind.antecedent, hpinching, hfew, hnot]
    · have hmany : 2 ≤ remaining := by omega
      cases f <;> simp [isOpen, Stream.isOpen, Stream.restart, hfew, hmany]
  · intro s' hs'
    cases hs'
    exact hs

theorem kind_releaseScroll (thresholds : Thresholds) (velocity : Point) :
    (releaseScroll thresholds velocity).kind.endsScroll = true := by
  unfold releaseScroll
  simp only []
  split <;> rfl

-- The end of a pinch, if one is under way, closes it and nothing else.
theorem run_pinchEnd (s : Stream) (t : ContactTable) (time : Time) (focus : Place) :
    f.run (s.isOpen f) (if s.pinching then [gestureAt t time .pinchEnd focus] else []) =
      some ({ s with pinching := false }.isOpen f) := by
  cases f <;> cases hpinching : s.pinching <;>
    simp [Stream.isOpen, hpinching, Family.next, Family.opener, Family.ends, Gesture.Payload.kind,
      Gesture.Kind.endsTap, Gesture.Kind.endsScroll, Gesture.Kind.antecedent]

theorem stream_finish (d : Detector) (s : Stream) (t : ContactTable) (time : Time) :
    (d.finish s t time).2.stream = none := by
  unfold finish
  split
  · rfl
  · simp only []
    split
    · rfl
    · split <;> try rfl
      split <;> rfl

theorem follows_finish (ht : t.acting?.isSome) (hd : d.stream = some s) (hs : s.Sound) :
    d.Follows (d.finish s t time).1 (d.finish s t time).2 := by
  have hnone := stream_finish d s t time
  refine ⟨fun f => ?_, sound_of_stream_eq_none hnone⟩
  rw [isOpen_of_stream_eq_some hd, isOpen_of_stream_eq_none hnone]
  obtain ⟨contact, hcontact⟩ := Option.isSome_iff_exists.mp ht
  unfold finish
  simp only [hcontact]
  split
  · next hscrolling =>
    have htap := hs hscrolling
    rw [Family.run_append, run_pinchEnd, Option.bind_some, Family.run_singleton, kind_gestureAt]
    have hends := kind_releaseScroll d.settings.thresholds
      ((s.velocity.add time t.focus.location).velocity time)
    generalize (releaseScroll d.settings.thresholds _).kind = k at hends
    cases f <;> cases k <;>
      simp_all [Stream.isOpen, Family.next, Family.opener, Family.ends, Gesture.Kind.endsTap,
        Gesture.Kind.endsScroll, Gesture.Kind.antecedent]
  · next hscrolling =>
    split
    · next htap =>
      rw [Family.run_append, run_pinchEnd, Option.bind_some, Family.run_singleton, kind_gestureAt]
      cases f <;>
        simp_all [Stream.isOpen, Family.next, Family.opener, Family.ends, Gesture.Payload.kind,
          Gesture.Kind.endsTap, Gesture.Kind.endsScroll, Gesture.Kind.antecedent]
    · next htap =>
      split <;>
        rw [Family.run_append, run_pinchEnd, Option.bind_some, Family.run_singleton,
          kind_gestureAt] <;>
        cases f <;>
        simp_all [Stream.isOpen, Family.next, Family.opener, Family.ends, Gesture.Payload.kind,
          Gesture.Kind.endsTap, Gesture.Kind.endsScroll, Gesture.Kind.antecedent]
    · next htap =>
      rw [run_pinchEnd]
      cases f <;> simp_all [Stream.isOpen]

theorem stream_abort (d : Detector) (s : Stream) (t : ContactTable) (time : Time) :
    (d.abort s t time).2.stream = none := rfl

theorem follows_abort (ht : t.acting?.isSome) (hd : d.stream = some s) :
    d.Follows (d.abort s t time).1 (d.abort s t time).2 := by
  have hnone := stream_abort d s t time
  refine ⟨fun f => ?_, sound_of_stream_eq_none hnone⟩
  rw [isOpen_of_stream_eq_some hd, isOpen_of_stream_eq_none hnone]
  obtain ⟨contact, hcontact⟩ := Option.isSome_iff_exists.mp ht
  unfold abort
  simp only [hcontact, Option.map_some, Option.toList_some]
  rw [Family.run_append, Family.run_append, run_pinchEnd, Option.bind_some]
  cases hscrolling : s.scrolling <;> cases htap : s.tap <;> cases f <;>
    simp_all [Stream.isOpen, Family.next, Family.opener, Family.ends, Gesture.Payload.kind,
      Gesture.Kind.endsTap, Gesture.Kind.endsScroll, Gesture.Kind.antecedent]

-- What is detected for a change leads from what was open to what is, as long as no
-- stream is under way when one begins.
theorem follows_handle (change : Change) (ht : t.acting?.isSome) (hs : d.Sound)
    (hbegan : change.action = .began → d.stream = none) :
    d.Follows (d.handle t change).1 (d.handle t change).2 := by
  unfold handle
  cases haction : change.action with
  | began =>
    exact follows_begin ht (hbegan haction)
  | joined =>
    cases hd : d.stream with
    | none => exact ⟨fun f => rfl, hs⟩
    | some s => exact follows_join ht hd (hs s hd)
  | moved =>
    cases hd : d.stream with
    | none => exact ⟨fun f => rfl, hs⟩
    | some s => exact follows_move ht hd (hs s hd)
  | left =>
    cases hd : d.stream with
    | none => exact ⟨fun f => rfl, hs⟩
    | some s => exact follows_leave hd (hs s hd)
  | ended =>
    cases hd : d.stream with
    | none => exact ⟨fun f => rfl, hs⟩
    | some s => exact follows_finish ht hd (hs s hd)
  | cancelled =>
    cases hd : d.stream with
    | none => exact ⟨fun f => rfl, hs⟩
    | some s => exact follows_abort ht hd

theorem stream_handle_of_closes {change : Change}
    (h : change.action = .ended ∨ change.action = .cancelled) :
    (d.handle t change).2.stream = none := by
  unfold handle
  rcases h with h | h <;> rw [h] <;> cases hd : d.stream
  · exact hd
  · exact stream_finish _ _ _ _
  · exact hd
  · rfl

theorem handle_of_stream_eq_none {change : Change} (hd : d.stream = none)
    (hbegan : change.action ≠ .began) : d.handle t change = ([], d) := by
  unfold handle
  rw [hd]
  cases haction : change.action with
  | began => exact absurd haction hbegan
  | joined | moved | left | ended | cancelled => rfl

theorem touch_eq_some (h : d.touch t = some (gestures, d')) :
    ∃ change, t.latest = some change ∧ d.refuses change = false ∧
      { d with lastTime := some change.time }.handle t change = (gestures, d') := by
  unfold touch at h
  split at h
  · cases h
  · next change hlatest =>
    split at h
    · cases h
    · next hrefuses => exact ⟨change, hlatest, by simpa using hrefuses, Option.some.inj h⟩

theorem follows_touch (ht : t.acting?.isSome) (hs : d.Sound)
    (hbegan : t.action = .began → d.stream = none) (h : d.touch t = some (gestures, d')) :
    d.Follows gestures d' := by
  obtain ⟨change, hlatest, -, hhandle⟩ := touch_eq_some h
  have haction : t.action = change.action := by simp [ContactTable.action, hlatest]
  have hfollows := follows_handle (d := { d with lastTime := some change.time }) change ht hs
    (by rwa [haction] at hbegan)
  rw [hhandle] at hfollows
  exact ⟨hfollows.run, hfollows.sound⟩

theorem stream_touch_of_closes (haction : t.action = .ended ∨ t.action = .cancelled)
    (h : d.touch t = some (gestures, d')) : d'.stream = none := by
  obtain ⟨change, hlatest, -, hhandle⟩ := touch_eq_some h
  have hchange : t.action = change.action := by simp [ContactTable.action, hlatest]
  rw [hchange] at haction
  have hnone := stream_handle_of_closes (d := { d with lastTime := some change.time }) (t := t)
    haction
  rwa [hhandle] at hnone

-- What the alarms of a stream bring about: nothing opens or ends, and only the press is
-- shown or found to be long.
structure Stream.Rings (s : Stream) (gestures : List Gesture) (s' : Stream) : Prop where
  isOpen : ∀ f : Family, s'.isOpen f = s.isOpen f
  sound : s.Sound → s'.Sound
  kinds : ∀ g ∈ gestures, g.kind = .showPress ∨ g.kind = .longPress

theorem Stream.rings_ring (s : Stream) (alarm : Alarm) (deadline : Time) :
    s.Rings (s.ring alarm deadline).1 (s.ring alarm deadline).2 := by
  unfold ring
  simp only []
  split
  · exact ⟨fun f => rfl, id, by simp [Gesture.kind, Gesture.Payload.kind]⟩
  · next htap =>
    refine ⟨fun f => ?_, fun hs hscrolling => ?_, by simp [Gesture.kind, Gesture.Payload.kind]⟩
    · cases f <;> simp [Stream.isOpen, htap]
    · have hoff := hs hscrolling
      rw [htap] at hoff
      cases hoff
  · exact ⟨fun f => rfl, id, by simp⟩

theorem Stream.rings_ringDue (s : Stream) (now : Time) (rounds : Nat) :
    s.Rings (s.ringDue now rounds).1 (s.ringDue now rounds).2 := by
  induction rounds generalizing s with
  | zero => exact ⟨fun f => rfl, id, by simp [ringDue]⟩
  | succ rounds ih =>
    unfold ringDue
    split
    · exact ⟨fun f => rfl, id, by simp⟩
    · next alarm deadline rest _ =>
      have hfirst := rings_ring { s with alarms := rest } alarm deadline
      have hothers := ih ({ s with alarms := rest }.ring alarm deadline).2
      refine ⟨fun f => ?_, fun hs => hothers.sound (hfirst.sound hs), ?_⟩
      · rw [hothers.isOpen, hfirst.isOpen]
        cases f <;> rfl
      · intro g hg
        rcases List.mem_append.mp hg with hg | hg
        · exact hfirst.kinds g hg
        · exact hothers.kinds g hg

theorem isOpen_tick (d : Detector) (now : Time) : (d.tick now).2.isOpen f = d.isOpen f := by
  unfold tick
  split
  · rfl
  · next s hd => simpa [isOpen, hd, Stream.tick] using (s.rings_ringDue now 2).isOpen f

theorem sound_tick (hs : d.Sound) (now : Time) : (d.tick now).2.Sound := by
  unfold tick
  split
  · exact hs
  · next s hd =>
    intro s' hs'
    cases hs'
    exact (s.rings_ringDue now 2).sound (hs s hd)

theorem kind_of_mem_tick {g : Gesture} {now : Time} (hg : g ∈ (d.tick now).1) :
    g.kind = .showPress ∨ g.kind = .longPress := by
  unfold tick at hg
  split at hg
  · cases hg
  · next s _ => exact (s.rings_ringDue now 2).kinds g hg

theorem stream_tick_eq_none_iff {now : Time} : (d.tick now).2.stream = none ↔ d.stream = none := by
  unfold tick
  split
  · rfl
  · next s hd => simp [hd]

theorem isOpen_configure (settings : ChannelSettings) :
    (d.configure settings).isOpen f = d.isOpen f := by
  unfold configure isOpen
  cases d.stream with
  | none => rfl
  | some s => cases f <;> rfl

theorem sound_configure (hs : d.Sound) (settings : ChannelSettings) :
    (d.configure settings).Sound := by
  intro s' hs'
  obtain ⟨s, hd, rfl⟩ := Option.map_eq_some_iff.mp hs'
  exact hs s hd

theorem stream_configure_eq_none_iff {settings : ChannelSettings} :
    (d.configure settings).stream = none ↔ d.stream = none := by
  simp [configure]

-- Switching double taps touches nothing but the settings and the last tap.
theorem stream_setDoubleTap (d : Detector) (enabled : Bool) :
    (d.setDoubleTap enabled).stream =
      (d.configure { d.settings with doubleTap := enabled }).stream := by
  unfold setDoubleTap
  simp only []
  split <;> rfl

theorem isOpen_setDoubleTap (d : Detector) (enabled : Bool) :
    (d.setDoubleTap enabled).isOpen f = d.isOpen f := by
  have hsame : (d.setDoubleTap enabled).isOpen f =
      (d.configure { d.settings with doubleTap := enabled }).isOpen f := by
    unfold isOpen
    rw [stream_setDoubleTap]
  rw [hsame, isOpen_configure]

end TouchGestures.Detector
