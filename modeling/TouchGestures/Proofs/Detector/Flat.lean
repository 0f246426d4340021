import Mathlib.Data.List.ReduceOption
import TouchGestures.Proofs.Detector.Poised

namespace TouchGestures.Detector

open Velocity (Tracker)

-- A detector with everything side by side. What a stream under way is about is told by flags,
-- which have to agree, and the alarms are a list, in which any number of timers could be
-- armed. `Shows` relates it to a detector.
structure Flat where
  settings : ChannelSettings
  down : Option Press := none
  lastTime : Option Time := none
  -- The press was told, and no end of the tap has been since.
  tapOpen : Bool := false
  -- The stream can complete as a tap.
  tapPossible : Bool := false
  longPressFired : Bool := false
  doubleTap : Bool := false
  lastTap : Option LastTap := none
  scrolling : Bool := false
  start : Point := Point.origin
  focus : Point := Point.origin
  velocity : Option Tracker := none
  pinching : Bool := false
  initialSpan : Scalar := 0
  lastSpan : Scalar := 0
  timers : List (Time × Alarm) := []

namespace Flat

def nextDeadline (f : Flat) : Option Time := (f.timers.map Prod.fst).min?

def cancelTap (f : Flat) (t : ContactTable) (time : Time) : List Gesture × Flat :=
  let cancelled := { f with tapPossible := false, timers := [] }
  if f.tapOpen && !f.longPressFired then
    ((t.acting?.map fun c => gestureAt t time .tapCancel c.place).toList,
      { cancelled with tapOpen := false })
  else ([], cancelled)

def endStream (f : Flat) : Flat :=
  { f with
    down := none, tapOpen := false, tapPossible := false, longPressFired := false
    doubleTap := false, scrolling := false, pinching := false, timers := [] }

def restart (f : Flat) (time : Time) (focus : Point) : Flat :=
  { f with start := focus, focus, velocity := some (Tracker.start time focus) }

-- A tracker that follows nothing yet starts where it is told to go.
def trackTo (f : Flat) (time : Time) (focus : Point) : Tracker :=
  match f.velocity with
  | some tracker => tracker.add time focus
  | none => Tracker.start time focus

def measure (f : Flat) (contacts : List Contact) (center : Point) : Flat :=
  let span := spread contacts center
  { f with initialSpan := span, lastSpan := span }

def begin (f : Flat) (t : ContactTable) (time : Time) : List Gesture × Flat :=
  match t.acting? with
  | none => ([], f)
  | some contact =>
    let doubleTap := f.settings.doubleTap && f.lastTap.any fun tap =>
      elapsed tap.time time ≤ f.settings.thresholds.doubleTapTimeout
        && tap.location.distance contact.location ≤ f.settings.thresholds.doubleTapSlop
    let begun :=
      { f with
        down := some ⟨contact.id, contact.details.tool, contact.place, t.eventId⟩
        tapOpen := true, tapPossible := true, longPressFired := false, doubleTap
        scrolling := false, pinching := false
        timers :=
          [(time + f.settings.thresholds.showPressDelay, .showPress),
            (time + f.settings.thresholds.longPressDelay, .longPress)] }
    ([gestureAt t time .tapDown contact.place], begun.restart time contact.location)

def join (f : Flat) (t : ContactTable) (time : Time) : List Gesture × Flat :=
  let (gestures, f) := f.cancelTap t time
  let focus := t.focus.location
  let f := f.restart time focus
  (gestures, if f.settings.pinch && !f.pinching then f.measure t.contacts focus else f)

def beginScroll (f : Flat) (t : ContactTable) (time : Time) : List Gesture × Flat :=
  let focus := t.focus
  if !f.scrolling && !f.longPressFired then
    if f.settings.thresholds.touchSlop < focus.location.distance f.start then
      let (cancelled, f) := f.cancelTap t time
      (cancelled ++ [gestureAt t time (.scrollBegin (focus.location - f.start)) focus],
        { f with scrolling := true })
    else ([], f)
  else ([], f)

def updateScroll (f : Flat) (t : ContactTable) (time : Time) : List Gesture :=
  let focus := t.focus
  let delta := focus.location - f.focus
  if f.scrolling then
    if !delta.same Point.origin then [gestureAt t time (.scrollUpdate delta) focus] else []
  else []

def pinch (f : Flat) (t : ContactTable) (time : Time) : List Gesture × Flat :=
  if f.settings.pinch && 2 ≤ t.count then
    let focus := t.focus
    let span := spread t.contacts focus.location
    if !f.pinching then
      if f.settings.thresholds.minimumPinchDelta < (span - f.initialSpan).abs then
        let (cancelled, f) := f.cancelTap t time
        (cancelled ++ [gestureAt t time .pinchBegin focus],
          { f with pinching := true, lastSpan := span })
      else ([], f)
    else if 0 < f.lastSpan && span != f.lastSpan then
      ([gestureAt t time (.pinchUpdate (span / f.lastSpan)) focus], { f with lastSpan := span })
    else ([], f)
  else ([], f)

def move (f : Flat) (t : ContactTable) (time : Time) : List Gesture × Flat :=
  let (begun, f) := f.beginScroll t time
  let scrolled := f.updateScroll t time
  let focus := t.focus.location
  let f := { f with focus, velocity := some (f.trackTo time focus) }
  let (pinched, f) := f.pinch t time
  (begun ++ scrolled ++ pinched, f)

def leave (f : Flat) (t : ContactTable) (time : Time) : List Gesture × Flat :=
  let focus := t.focusOf t.staying
  let remaining := t.count - 1
  let ending := f.pinching && remaining < 2
  let ended := if ending then [gestureAt t time .pinchEnd focus] else []
  let f := if ending then { f with pinching := false } else f
  let f := f.restart time focus.location
  (ended, if f.settings.pinch && 2 ≤ remaining then f.measure t.staying focus.location else f)

def finish (f : Flat) (t : ContactTable) (time : Time) : List Gesture × Flat :=
  match t.acting? with
  | none => ([], f.endStream)
  | some contact =>
    let focus := t.focus
    let tracker := f.trackTo time focus.location
    let f := { f with velocity := some tracker }
    let pinchEnd := if f.pinching then [gestureAt t time .pinchEnd focus] else []
    if f.scrolling then
      let payload := releaseScroll f.settings.thresholds (tracker.velocity time)
      (pinchEnd ++ [gestureAt t time payload focus], f.endStream)
    else if f.longPressFired then
      (pinchEnd ++ [gestureAt t time .longTap contact.place], f.endStream)
    else if f.tapPossible then
      if f.doubleTap then
        (pinchEnd ++ [gestureAt t time .doubleTap contact.place],
          { f with lastTap := none }.endStream)
      else
        (pinchEnd ++ [gestureAt t time (.tap 1) contact.place],
          { f with lastTap := some ⟨time, contact.location⟩ }.endStream)
    else (pinchEnd, f.endStream)

def abort (f : Flat) (t : ContactTable) (time : Time) : List Gesture × Flat :=
  if f.down.isNone then ([], f)
  else
    let focus := t.focus
    let pinchEnd := if f.pinching then [gestureAt t time .pinchEnd focus] else []
    let scrollEnd := if f.scrolling then [gestureAt t time .scrollEnd focus] else []
    let tapCancel :=
      if f.tapOpen then (t.acting?.map fun c => gestureAt t time .tapCancel c.place).toList else []
    (pinchEnd ++ scrollEnd ++ tapCancel, { f with lastTap := none }.endStream)

def handle (f : Flat) (t : ContactTable) (change : Change) : List Gesture × Flat :=
  match change.action with
  | .began => f.begin t change.time
  | .joined => f.join t change.time
  | .moved => f.move t change.time
  | .left => f.leave t change.time
  | .ended => f.finish t change.time
  | .cancelled => f.abort t change.time

def touch (f : Flat) (t : ContactTable) : Option (List Gesture × Flat) :=
  match t.latest with
  | none => none
  | some change =>
    let standsAlone := change.action = .began ∨ change.action = .cancelled
    if f.down.isNone ∧ ¬standsAlone then none
    else if f.lastTime.any (change.time < ·) ∧ ¬standsAlone then none
    else some ({ f with lastTime := some change.time }.handle t change)

def due? (f : Flat) (now : Time) : Option (Time × Alarm) :=
  (f.timers.filter (·.1 ≤ now)).minOn? Prod.fst

-- Fires a timer that has been taken out. It is dropped without a gesture when no stream is
-- under way or the tap was called off.
def ring (f : Flat) (timer : Time × Alarm) : Option Gesture × Flat :=
  match f.down with
  | none => (none, f)
  | some press =>
    let gesture (payload : Gesture.Payload) : Gesture :=
      { payload, contactId := press.contactId, tool := press.tool, time := timer.1,
        place := press.place, contactCount := 1, bounds := Rect.ofPoint press.place.location,
        synthesized := false, eventId := press.eventId, nonBlocking := false }
    if f.tapPossible then
      match timer.2 with
      | .showPress => (some (gesture .showPress), f)
      | .longPress =>
        (some (gesture .longPress),
          { f with longPressFired := true, tapPossible := false, timers := [] })
    else (none, f)

theorem mem_of_due? {f : Flat} {now : Time} {timer : Time × Alarm}
    (h : f.due? now = some timer) : timer ∈ f.timers :=
  (List.mem_filter.mp (List.minOn?_mem h)).1

theorem length_timers_ring (f : Flat) (timer : Time × Alarm) :
    (f.ring timer).2.timers.length ≤ f.timers.length := by
  unfold ring
  split
  · exact Nat.le_refl _
  · dsimp only
    split
    · split
      · exact Nat.le_refl _
      · exact Nat.zero_le _
    · exact Nat.le_refl _

-- Fires all timers that are due, the earliest first. What is dropped without a gesture leaves
-- a gap.
def fire (f : Flat) (now : Time) : List (Option Gesture) × Flat :=
  match hdue : f.due? now with
  | none => ([], f)
  | some timer =>
    let rung := { f with timers := f.timers.erase timer }.ring timer
    let others := rung.2.fire now
    (rung.1 :: others.1, others.2)
termination_by f.timers.length
decreasing_by
  have hmem := mem_of_due? hdue
  have hring := length_timers_ring { f with timers := f.timers.erase timer } timer
  have herase : (f.timers.erase timer).length + 1 = f.timers.length :=
    List.length_erase_add_one hmem
  exact Nat.lt_of_le_of_lt hring (Nat.lt_of_succ_le (Nat.le_of_eq herase))

def tick (f : Flat) (now : Time) : List Gesture × Flat :=
  ((f.fire now).1.reduceOption, (f.fire now).2)

def reset (f : Flat) : Flat := { f with lastTap := none, lastTime := none }.endStream

def configure (f : Flat) (settings : ChannelSettings) : Flat :=
  { f with settings, doubleTap := f.doubleTap && settings.doubleTap }

def setDoubleTap (f : Flat) (enabled : Bool) : Flat :=
  let f := { f with settings := { f.settings with doubleTap := enabled } }
  if enabled then f else { f with doubleTap := false, lastTap := none }

def perform (f : Flat) : Op → List Gesture × Flat
  | .touch t => (f.touch t).getD ([], f)
  | .tick now => f.tick now
  | .reset => ([], f.reset)
  | .configure settings => ([], f.configure settings)
  | .setDoubleTap enabled => ([], f.setDoubleTap enabled)

def performAll (f : Flat) : List Op → List Gesture × Flat
  | [] => ([], f)
  | op :: rest =>
    let (first, f) := f.perform op
    let (others, f) := f.performAll rest
    (first ++ others, f)

end Flat

def Alarms.timers (a : Alarms) : List (Time × Alarm) :=
  (a.showPress.map fun time => (time, Alarm.showPress)).toList ++
    (a.longPress.map fun time => (time, Alarm.longPress)).toList

namespace Flat

variable {f : Flat} {d : Detector} {s : Stream} {t : ContactTable} {time now : Time}

-- A detector laid out flat while a stream is under way.
def during (d : Detector) (s : Stream) : Flat where
  settings := d.settings
  down := some s.press
  lastTime := d.lastTime
  tapOpen := s.tap ≠ .off
  tapPossible := s.tap = .possible
  longPressFired := s.tap = .long
  doubleTap := s.doubleTap
  lastTap := d.lastTap
  scrolling := s.scrolling
  start := s.start
  focus := s.focus
  velocity := some s.velocity
  pinching := s.pinching
  initialSpan := d.initialSpan
  lastSpan := d.lastSpan
  timers := s.alarms.timers

-- A detector laid out flat while there is no stream. What the last stream has left behind is
-- not looked at any more.
def between (d : Detector) (start focus : Point) (velocity : Option Tracker) : Flat where
  settings := d.settings
  lastTime := d.lastTime
  lastTap := d.lastTap
  start := start
  focus := focus
  velocity := velocity
  initialSpan := d.initialSpan
  lastSpan := d.lastSpan

-- All that the one holds is what the other does.
inductive Shows : Flat → Detector → Prop
  | during {d : Detector} {s : Stream} (hs : d.stream = some s) : Shows (during d s) d
  | between {d : Detector} (hs : d.stream = none) (start focus : Point)
    (velocity : Option Tracker) : Shows (between d start focus velocity) d

theorem cancelTap_during (d : Detector) (s : Stream) (t : ContactTable) (time : Time) :
    (during d s).cancelTap t time =
      ((s.cancelTap t time).1, during d (s.cancelTap t time).2) := by
  unfold cancelTap Stream.cancelTap during
  cases htap : s.tap <;> simp [Alarms.timers, Alarms.off]

theorem shows_of_stream (hs : d.stream = some s) (hf : f = during d s) : f.Shows d :=
  hf ▸ .during hs

theorem shows_endStream (hs : d.stream = none) (hsettings : d.settings = f.settings)
    (htime : d.lastTime = f.lastTime) (htap : d.lastTap = f.lastTap)
    (hinitial : d.initialSpan = f.initialSpan) (hlast : d.lastSpan = f.lastSpan) :
    f.endStream.Shows d := by
  have hbetween : f.endStream = between d f.start f.focus f.velocity := by
    simp [endStream, between, hsettings, htime, htap, hinitial, hlast]
  exact hbetween ▸ .between hs f.start f.focus f.velocity

-- What the one gives, and what becomes of it, is what the other does.
def Matches (x : List Gesture × Flat) (y : List Gesture × Detector) : Prop :=
  x.1 = y.1 ∧ x.2.Shows y.2

theorem matches_ite {c c' : Prop} [Decidable c] [Decidable c'] {x x' : List Gesture × Flat}
    {y y' : List Gesture × Detector} (hc : c ↔ c') (hthen : Matches x y) (helse : Matches x' y') :
    Matches (if c then x else x') (if c' then y else y') := by
  by_cases h : c
  · rwa [if_pos h, if_pos (hc.mp h)]
  · rwa [if_neg h, if_neg (mt hc.mpr h)]

theorem matches_begin (h : f.Shows d) (t : ContactTable) (time : Time) :
    Matches (f.begin t time) (d.begin t time) := by
  cases hacting : t.acting? with
  | none => simpa [begin, Detector.begin, hacting, Matches] using h
  | some contact =>
    cases h <;> simp only [begin, Detector.begin, hacting] <;>
      exact ⟨rfl, shows_of_stream rfl rfl⟩

theorem matches_join (d : Detector) (s : Stream) (t : ContactTable) (time : Time) :
    Matches ((during d s).join t time) (d.join s t time) := by
  simp only [join, Detector.join, cancelTap_during]
  refine ⟨rfl, shows_of_stream rfl ?_⟩
  exact (apply_ite (fun d => during d ((s.cancelTap t time).2.restart time t.focus.location))
    (d.settings.pinch && !(s.cancelTap t time).2.pinching)
    (d.measure t.contacts t.focus.location) d).symm

theorem beginScroll_during (d : Detector) (s : Stream) (t : ContactTable) (time : Time) :
    (during d s).beginScroll t time =
      ((s.beginScroll d.settings.thresholds.touchSlop t time).1,
        during d (s.beginScroll d.settings.thresholds.touchSlop t time).2) := by
  have hcan : (!(during d s).scrolling && !(during d s).longPressFired) =
      (!s.scrolling && decide (s.tap ≠ .long)) := by
    simp [during]
  have hfar : (during d s).settings.thresholds.touchSlop <
      t.focus.location.distance (during d s).start ↔
        d.settings.thresholds.touchSlop < t.focus.location.distance s.start := Iff.rfl
  unfold beginScroll Stream.beginScroll
  simp only [cancelTap_during, hcan, hfar]
  by_cases hbegins : (!s.scrolling && decide (s.tap ≠ .long)) = true
  · by_cases hslop : d.settings.thresholds.touchSlop < t.focus.location.distance s.start
    · simp only [hbegins, hslop, decide_true, Bool.and_self, if_true]
      rfl
    · simp only [hbegins, hslop, decide_false, Bool.and_false, Bool.false_eq_true, if_false,
        if_true]
  · simp only [hbegins, Bool.false_and, Bool.false_eq_true, if_false]

theorem updateScroll_during (d : Detector) (s : Stream) (t : ContactTable) (time : Time) :
    (during d s).updateScroll t time = s.updateScroll t time := by
  have hscrolling : (during d s).scrolling = s.scrolling := rfl
  unfold updateScroll Stream.updateScroll
  rw [hscrolling]
  cases s.scrolling <;> rfl

theorem matches_pinch (d : Detector) (s : Stream) (t : ContactTable) (time : Time) :
    Matches ((during d s).pinch t time) (d.pinch s t time) := by
  have hsame : Matches ([], during d s) ([], { d with stream := some s }) :=
    ⟨rfl, shows_of_stream rfl rfl⟩
  simp only [pinch, Detector.pinch, cancelTap_during]
  refine matches_ite Iff.rfl (matches_ite Iff.rfl ?_ ?_) hsame
  · exact matches_ite Iff.rfl ⟨rfl, shows_of_stream rfl rfl⟩ hsame
  · exact matches_ite Iff.rfl ⟨rfl, shows_of_stream rfl rfl⟩ hsame

theorem matches_move (d : Detector) (s : Stream) (t : ContactTable) (time : Time) :
    Matches ((during d s).move t time) (d.move s t time) := by
  have hpinch := matches_pinch d (s.scroll d.settings.thresholds.touchSlop t time).2 t time
  simp only [move, beginScroll_during, updateScroll_during]
  exact ⟨congrArg (_ ++ ·) hpinch.1, hpinch.2⟩

theorem matches_leave (d : Detector) (s : Stream) (t : ContactTable) (time : Time) :
    Matches ((during d s).leave t time) (d.leave s t time) := by
  have hpinching : (if ((during d s).pinching && decide (t.count - 1 < 2)) = true then
        { during d s with pinching := false }
      else during d s) = during d { s with pinching := s.pinching && 2 ≤ t.count - 1 } := by
    by_cases htwo : 2 ≤ t.count - 1
    · simp [during, htwo, Nat.not_lt.mpr htwo]
    · cases hwas : s.pinching <;> simp [during, htwo, Nat.not_le.mp htwo, hwas]
  unfold leave Detector.leave
  simp only [hpinching]
  refine ⟨rfl, shows_of_stream rfl ?_⟩
  exact (apply_ite (fun d => during d
      ({ s with pinching := s.pinching && 2 ≤ t.count - 1 }.restart time
        (t.focusOf t.staying).location))
    (d.settings.pinch && decide (2 ≤ t.count - 1))
    (d.measure t.staying (t.focusOf t.staying).location) d).symm

theorem matches_finish (d : Detector) (s : Stream) (t : ContactTable) (time : Time) :
    Matches ((during d s).finish t time) (d.finish s t time) := by
  unfold finish Detector.finish
  cases t.acting? with
  | none => exact ⟨rfl, shows_endStream rfl rfl rfl rfl rfl rfl⟩
  | some contact =>
    refine matches_ite Iff.rfl ⟨rfl, shows_endStream rfl rfl rfl rfl rfl rfl⟩ ?_
    have hlong : (during d s).longPressFired = true ↔ s.tap = .long := by simp [during]
    have hpossible : (during d s).tapPossible = true ↔ s.tap = .possible := by simp [during]
    cases htap : s.tap with
    | long =>
      rw [if_pos (hlong.mpr htap)]
      exact ⟨rfl, shows_endStream rfl rfl rfl rfl rfl rfl⟩
    | possible =>
      rw [if_neg (by simp [hlong, htap]), if_pos (hpossible.mpr htap)]
      exact matches_ite Iff.rfl ⟨rfl, shows_endStream rfl rfl rfl rfl rfl rfl⟩
        ⟨rfl, shows_endStream rfl rfl rfl rfl rfl rfl⟩
    | off =>
      rw [if_neg (by simp [hlong, htap]), if_neg (by simp [hpossible, htap])]
      exact ⟨rfl, shows_endStream rfl rfl rfl rfl rfl rfl⟩

theorem matches_abort (d : Detector) (s : Stream) (t : ContactTable) (time : Time) :
    Matches ((during d s).abort t time) (d.abort s t time) := by
  refine ⟨?_, shows_endStream rfl rfl rfl rfl rfl rfl⟩
  unfold abort Detector.abort
  cases htap : s.tap <;> simp [during, htap]

theorem matches_handle (h : f.Shows d) (t : ContactTable) {change : Change}
    (hstream : d.stream = none → change.action = .began ∨ change.action = .cancelled) :
    Matches (f.handle t change) (d.handle t change) := by
  unfold handle Detector.handle
  cases h with
  | @during d s hs =>
    rw [hs]
    cases change.action with
    | began => exact matches_begin (.during hs) t change.time
    | joined => exact matches_join d s t change.time
    | moved => exact matches_move d s t change.time
    | left => exact matches_leave d s t change.time
    | ended => exact matches_finish d s t change.time
    | cancelled => exact matches_abort d s t change.time
  | between hs start focus velocity =>
    have hshows := Shows.between hs start focus velocity
    rcases hstream hs with haction | haction <;> rw [haction]
    · exact matches_begin hshows t change.time
    · rw [hs]
      exact ⟨rfl, hshows⟩

theorem Shows.at_time (h : f.Shows d) (time : Time) :
    { f with lastTime := some time }.Shows { d with lastTime := some time } := by
  cases h with
  | during hs => exact shows_of_stream hs rfl
  | @between d hs start focus velocity =>
    exact .between (d := { d with lastTime := some time }) hs start focus velocity

theorem Shows.isNone_down (h : f.Shows d) : f.down.isNone = d.stream.isNone := by
  cases h with
  | during hs => rw [hs]; rfl
  | between hs => rw [hs]; rfl

theorem Shows.timers_eq (h : f.Shows d) : f.timers = d.alarms.timers := by
  unfold alarms
  cases h with
  | during hs => rw [hs]; rfl
  | between hs => rw [hs]; rfl

theorem Shows.tapPossible_iff (h : f.Shows d) : f.tapPossible = true ↔ d.Tappable := by
  unfold Tappable
  cases h with
  | during hs => simp [hs, Flat.during]
  | between hs => simp [hs, Flat.between]

theorem Shows.lastTime_eq (h : f.Shows d) : f.lastTime = d.lastTime := by
  cases h <;> rfl

-- Both turn down the same touches, and do the same with the others.
theorem matches_touch (h : f.Shows d) (t : ContactTable) :
    Matches ((f.touch t).getD ([], f)) ((d.touch t).getD ([], d)) := by
  unfold touch Detector.touch
  cases t.latest with
  | none => exact ⟨rfl, h⟩
  | some change =>
    simp only [h.isNone_down, h.lastTime_eq]
    by_cases halone : change.action = .began ∨ change.action = .cancelled
    · have hrefuses : d.refuses change = false := by
        rcases halone with haction | haction <;> rw [refuses, haction]
      simp only [halone, not_true_eq_false, and_false, if_false, hrefuses, Bool.false_eq_true]
      exact matches_handle (h.at_time change.time) t fun _ => halone
    · have hrefuses : d.refuses change =
          (d.stream.isNone || d.lastTime.any (change.time < ·)) := by
        unfold refuses
        cases haction : change.action <;> simp_all
      simp only [halone, not_false_eq_true, and_true, hrefuses, Bool.or_eq_true]
      by_cases hnone : d.stream.isNone = true
      · simpa only [hnone, true_or, if_true] using ⟨rfl, h⟩
      · by_cases hold : d.lastTime.any (change.time < ·) = true
        · simpa only [hnone, hold, or_true, if_true, if_false] using ⟨rfl, h⟩
        · simp only [hnone, hold, or_self]
          refine matches_handle (h.at_time change.time) t fun hs => ?_
          exact absurd (Option.isNone_iff_eq_none.mpr hs) hnone

end Flat

namespace Alarms

variable {a rest : Alarms} {alarm : Alarm} {deadline now : Time}

theorem minOn?_timers (a : Alarms) (now : Time) :
    (a.timers.filter (·.1 ≤ now)).minOn? Prod.fst =
      (a.takeDue? now).map fun first => (first.2.1, first.1) := by
  obtain ⟨_ | s, _ | l⟩ := a
  · rfl
  · by_cases hl : l ≤ now <;> simp [timers, takeDue?, Option.filter_some, hl, List.minOn?]
  · by_cases hs : s ≤ now <;> simp [timers, takeDue?, Option.filter_some, hs, List.minOn?]
  · by_cases hs : s ≤ now <;> by_cases hl : l ≤ now <;> by_cases hsl : s ≤ l <;>
      simp [timers, takeDue?, Option.filter_some, hs, hl, hsl, List.minOn?, minOn]

theorem erase_timers (h : a.takeDue? now = some (alarm, deadline, rest)) :
    a.timers.erase (deadline, alarm) = rest.timers := by
  obtain ⟨-, ⟨rfl, hset, rfl, -⟩ | ⟨rfl, hset, rfl, -⟩⟩ := takeDue?_eq_some_iff.mp h
  · simp [timers, hset]
  · cases hshow : a.showPress <;> simp [timers, hset, hshow]

theorem min?_timers (a : Alarms) : (a.timers.map Prod.fst).min? = a.next? := by
  obtain ⟨_ | s, _ | l⟩ := a <;> simp [timers, next?, List.min?]

-- Each alarm is set once at most.
theorem count_timers_le_one (a : Alarms) (alarm : Alarm) :
    (a.timers.map Prod.snd).count alarm ≤ 1 := by
  obtain ⟨_ | s, _ | l⟩ := a <;> cases alarm <;> simp [timers]

theorem longPress_mem_timers_iff (a : Alarms) :
    .longPress ∈ a.timers.map Prod.snd ↔ a.longPress.isSome = true := by
  obtain ⟨_ | s, _ | l⟩ := a <;> simp [timers]

end Alarms

namespace Flat

variable {f : Flat} {d : Detector} {s : Stream} {now deadline : Time} {alarm : Alarm}
  {rest : Alarms}

theorem due?_during (d : Detector) (s : Stream) (now : Time) :
    (during d s).due? now = (s.alarms.takeDue? now).map fun first => (first.2.1, first.1) :=
  s.alarms.minOn?_timers now

theorem erase_during (h : s.alarms.takeDue? now = some (alarm, deadline, rest)) (d : Detector) :
    { during d s with timers := (during d s).timers.erase (deadline, alarm) } =
      during d { s with alarms := rest } := by
  have herase : (during d s).timers.erase (deadline, alarm) = rest.timers := Alarms.erase_timers h
  rw [herase]
  rfl

theorem ring_during (htap : s.tap = .possible) (d : Detector) (alarm : Alarm) (deadline : Time) :
    (during d s).ring (deadline, alarm) =
      ((s.ring alarm deadline).1.head?, during d (s.ring alarm deadline).2) := by
  cases alarm <;> simp [ring, Stream.ring, during, htap, Alarms.timers, Alarms.off]

theorem fire_of_due?_eq_none (h : f.due? now = none) : f.fire now = ([], f) := by
  unfold fire
  split
  · rfl
  · next hdue => cases h.symm.trans hdue

theorem fire_of_due? {timer : Time × Alarm} {rung : Option Gesture × Flat}
    (h : f.due? now = some timer)
    (hrung : { f with timers := f.timers.erase timer }.ring timer = rung) :
    f.fire now = (rung.1 :: (rung.2.fire now).1, (rung.2.fire now).2) := by
  rw [fire]
  split
  · next hdue => cases h.symm.trans hdue
  · next other hdue =>
    obtain rfl := Option.some.inj (h.symm.trans hdue)
    rw [← hrung]

-- While alarms are set only as long as the stream can complete as a tap, every timer that
-- fires gives its gesture, and none is dropped.
theorem fire_during {rounds : Nat} (hs : s.Poised) (d : Detector)
    (hcount : s.alarms.count ≤ rounds) :
    (during d s).fire now =
      ((s.ringDue now rounds).1.map some, during d (s.ringDue now rounds).2) := by
  induction rounds generalizing s with
  | zero =>
    have hnone : s.alarms.takeDue? now = none :=
      Stream.takeDue?_of_count_eq_zero (Nat.le_zero.mp hcount)
    rw [fire_of_due?_eq_none (by rw [due?_during, hnone]; rfl),
      Stream.ringDue_of_takeDue?_eq_none hnone]
    rfl
  | succ rounds ih =>
    cases htaken : s.alarms.takeDue? now with
    | none =>
      rw [fire_of_due?_eq_none (by rw [due?_during, htaken]; rfl),
        Stream.ringDue_of_takeDue?_eq_none htaken]
      rfl
    | some first =>
      obtain ⟨alarm, deadline, rest⟩ := first
      obtain ⟨g, hring, -, hrung, -⟩ := hs.ring htaken
      have hdue : (during d s).due? now = some (deadline, alarm) := by
        rw [due?_during, htaken]
        rfl
      have hflat : { during d s with
          timers := (during d s).timers.erase (deadline, alarm) }.ring (deadline, alarm) =
            (some g, during d (s.rung alarm deadline rest)) := by
        have htap : { s with alarms := rest }.tap = .possible := hs.tap_of_takeDue? htaken
        rw [erase_during htaken, ring_during htap, hring]
        rfl
      have hless := Stream.count_alarms_rung htaken
      rw [fire_of_due? hdue hflat, Stream.ringDue_of_takeDue? htaken, hring,
        ih hrung (by omega)]
      rfl

theorem matches_tick (h : f.Shows d) (hd : d.Poised) (now : Time) :
    Matches (f.tick now) (d.tick now) ∧ none ∉ (f.fire now).1 := by
  cases h with
  | @during d s hs =>
    have hfire : (during d s).fire now =
        ((s.ringDue now 2).1.map some, during d (s.ringDue now 2).2) :=
      fire_during (hd s hs) d s.alarms.count_le_two
    rw [tick, hfire, tick_of_stream_eq_some hs]
    exact ⟨⟨by simp [List.reduceOption, Stream.tick], shows_of_stream rfl rfl⟩, by simp⟩
  | between hs start focus velocity =>
    have hfire : (between d start focus velocity).fire now = ([], between d start focus velocity) :=
      fire_of_due?_eq_none rfl
    rw [tick, hfire, tick_of_stream_eq_none hs]
    exact ⟨⟨rfl, .between hs start focus velocity⟩, by simp⟩

-- A timer that is armed while no stream is under way would be dropped.
example : (Flat.fire { settings := {}, timers := [(150, .showPress)] } 150).1 = [none] := by
  cbv

theorem Shows.configure (h : f.Shows d) (settings : ChannelSettings) :
    (f.configure settings).Shows (d.configure settings) := by
  cases h with
  | @during d s hs => exact shows_of_stream (congrArg (Option.map _) hs) rfl
  | @between d hs start focus velocity =>
    exact .between (d := d.configure settings) (congrArg (Option.map _) hs) start focus velocity

theorem Shows.setDoubleTap (h : f.Shows d) (enabled : Bool) :
    (f.setDoubleTap enabled).Shows (d.setDoubleTap enabled) := by
  cases h with
  | @during d s hs =>
    have hstream := (stream_setDoubleTap d enabled).trans (congrArg (Option.map _) hs)
    refine shows_of_stream hstream ?_
    cases enabled <;>
      simp [Flat.setDoubleTap, Detector.setDoubleTap, Detector.configure, Flat.during]
  | @between d hs start focus velocity =>
    have hstream := (stream_setDoubleTap d enabled).trans (congrArg (Option.map _) hs)
    cases enabled <;>
      exact .between (d := d.setDoubleTap _) hstream start focus velocity

theorem Shows.reset (h : f.Shows d) : f.reset.Shows d.reset := by
  cases h <;> exact shows_endStream rfl rfl rfl rfl rfl rfl

-- Both do the same, whatever they are asked.
theorem matches_perform (h : f.Shows d) (hd : d.Poised) (op : Op) :
    Matches (f.perform op) (d.perform op) := by
  cases op with
  | touch t => exact matches_touch h t
  | tick now => exact (matches_tick h hd now).1
  | reset => exact ⟨rfl, h.reset⟩
  | configure settings => exact ⟨rfl, h.configure settings⟩
  | setDoubleTap enabled => exact ⟨rfl, h.setDoubleTap enabled⟩

theorem shows_start (settings : ChannelSettings) : Shows { settings } { settings } :=
  .between (d := { settings }) rfl Point.origin Point.origin none

-- A new detector that is laid out flat gives the gestures that the other one does.
theorem matches_performAll (h : f.Shows d) (hd : d.Poised) (ops : List Op) :
    Matches (f.performAll ops) ((d.history ops).flatMap Moment.gestures, d.performAll ops) := by
  induction ops generalizing f d with
  | nil => exact ⟨rfl, h⟩
  | cons op rest ih =>
    obtain ⟨hgestures, hshows⟩ := matches_perform h hd op
    obtain ⟨hothers, hafter⟩ := ih hshows (poised_perform hd op)
    refine ⟨?_, hafter⟩
    simp only [performAll, history, List.flatMap_cons, hgestures, hothers]
    rfl

end Flat

end TouchGestures.Detector
