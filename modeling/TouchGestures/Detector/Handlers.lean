import TouchGestures.Detector.Basic

namespace TouchGestures.Detector

-- Whether a press at this place and time may be the second tap of a double tap.
def followsTap (d : Detector) (time : Time) (location : Point) : Bool :=
  d.settings.doubleTap && d.lastTap.any fun tap =>
    elapsed tap.time time ≤ d.settings.thresholds.doubleTapTimeout
      && tap.location.distance location ≤ d.settings.thresholds.doubleTapSlop

-- Takes the span of some contacts as the one that later spans are compared with.
def measure (d : Detector) (contacts : List Contact) (center : Point) : Detector :=
  let span := spread contacts center
  { d with initialSpan := span, lastSpan := span }

def begin (d : Detector) (t : ContactTable) (time : Time) : List Gesture × Detector :=
  match t.acting? with
  | none => ([], d)
  | some contact =>
    let stream : Stream :=
      { press := ⟨contact.id, contact.details.tool, contact.place, t.eventId⟩
        doubleTap := d.followsTap time contact.location
        start := contact.location
        focus := contact.location
        velocity := Velocity.Tracker.start time contact.location
        alarms :=
          { showPress := some (time + d.settings.thresholds.showPressDelay)
            longPress := some (time + d.settings.thresholds.longPressDelay) } }
    ([gestureAt t time .tapDown contact.place], { d with stream := some stream })

def join (d : Detector) (s : Stream) (t : ContactTable) (time : Time) : List Gesture × Detector :=
  let (gestures, s) := s.cancelTap t time
  let focus := t.focus.location
  let d := if d.settings.pinch && !s.pinching then d.measure t.contacts focus else d
  (gestures, { d with stream := some (s.restart time focus) })

def pinch (d : Detector) (s : Stream) (t : ContactTable) (time : Time) :
    List Gesture × Detector :=
  let unchanged := ([], { d with stream := some s })
  if d.settings.pinch && 2 ≤ t.count then
    let focus := t.focus
    let span := spread t.contacts focus.location
    if !s.pinching then
      if d.settings.thresholds.minimumPinchDelta < (span - d.initialSpan).abs then
        let (cancelled, s) := s.cancelTap t time
        (cancelled ++ [gestureAt t time .pinchBegin focus],
          { d with stream := some { s with pinching := true }, lastSpan := span })
      else unchanged
    else if 0 < d.lastSpan && span != d.lastSpan then
      ([gestureAt t time (.pinchUpdate (span / d.lastSpan)) focus],
        { d with stream := some s, lastSpan := span })
    else unchanged
  else unchanged

def move (d : Detector) (s : Stream) (t : ContactTable) (time : Time) : List Gesture × Detector :=
  let (scrolled, s) := s.scroll d.settings.thresholds.touchSlop t time
  let (pinched, d) := d.pinch s t time
  (scrolled ++ pinched, d)

def leave (d : Detector) (s : Stream) (t : ContactTable) (time : Time) : List Gesture × Detector :=
  let staying := t.staying
  let focus := t.focusOf staying
  let remaining := t.count - 1
  let ended := if s.pinching && remaining < 2 then [gestureAt t time .pinchEnd focus] else []
  let s := { s with pinching := s.pinching && 2 ≤ remaining }
  let d := if d.settings.pinch && 2 ≤ remaining then d.measure staying focus.location else d
  (ended, { d with stream := some (s.restart time focus.location) })

-- How a scroll ends that is released at some velocity: as a fling if it is fast enough,
-- at no more than the maximum velocity.
def releaseScroll (thresholds : Thresholds) (velocity : Point) : Gesture.Payload :=
  let speed := velocity.length
  if thresholds.minimumFlingVelocity ≤ speed then
    let factor :=
      if thresholds.maximumFlingVelocity < speed then thresholds.maximumFlingVelocity / speed
      else 1
    .flingStart (velocity.scale factor)
  else .scrollEnd

def finish (d : Detector) (s : Stream) (t : ContactTable) (time : Time) :
    List Gesture × Detector :=
  match t.acting? with
  | none => ([], d.endStream)
  | some contact =>
    let focus := t.focus
    let pinchEnd := if s.pinching then [gestureAt t time .pinchEnd focus] else []
    if s.scrolling then
      let velocity := (s.velocity.add time focus.location).velocity time
      (pinchEnd ++ [gestureAt t time (releaseScroll d.settings.thresholds velocity) focus],
        d.endStream)
    else
      match s.tap with
      | .long => (pinchEnd ++ [gestureAt t time .longTap contact.place], d.endStream)
      | .possible =>
        if s.doubleTap then
          (pinchEnd ++ [gestureAt t time .doubleTap contact.place],
            { d.endStream with lastTap := none })
        else
          (pinchEnd ++ [gestureAt t time (.tap 1) contact.place],
            { d.endStream with lastTap := some ⟨time, contact.location⟩ })
      | .off => (pinchEnd, d.endStream)

-- The stream was cancelled. Whatever is under way is closed.
def abort (d : Detector) (s : Stream) (t : ContactTable) (time : Time) :
    List Gesture × Detector :=
  let focus := t.focus
  let pinchEnd := if s.pinching then [gestureAt t time .pinchEnd focus] else []
  let scrollEnd := if s.scrolling then [gestureAt t time .scrollEnd focus] else []
  let tapCancel :=
    if s.tap = .off then []
    else (t.acting?.map fun c => gestureAt t time .tapCancel c.place).toList
  (pinchEnd ++ scrollEnd ++ tapCancel, { d.endStream with lastTap := none })

end TouchGestures.Detector
