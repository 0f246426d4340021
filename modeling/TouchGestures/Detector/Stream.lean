import TouchGestures.ContactTable.Extent
import TouchGestures.Detector.Alarms
import TouchGestures.Gesture
import TouchGestures.Settings
import TouchGestures.Velocity

namespace TouchGestures.Detector

-- A gesture that the last touch of a table produced.
def gestureAt (t : ContactTable) (time : Time) (payload : Gesture.Payload) (place : Place) :
    Gesture where
  payload := payload
  contactId := (t.contacts.head?.map (·.id)).getD 0
  tool := (t.contacts.head?.map (·.details.tool)).getD .unknown
  time := time
  place := place
  contactCount := t.count
  bounds := t.bounds
  synthesized := t.synthesized
  eventId := 0
  nonBlocking := false

structure Press where
  contactId : ContactId
  tool : Tool
  place : Place
  eventId : EventId
  deriving DecidableEq

-- What may still become of the tap that a stream started as.
inductive Tap
  -- The stream can complete as a tap.
  | possible
  -- The press lasted long and is now only waiting for its release.
  | long
  -- The tap was called off.
  | off
  deriving DecidableEq

-- The touches from the first press to the last release.
structure Stream where
  press : Press
  tap : Tap := .possible
  -- The stream may complete as the second tap of a double tap.
  doubleTap : Bool
  scrolling : Bool := false
  pinching : Bool := false
  -- Where the contacts were centred when their number last changed.
  start : Point
  -- Where the contacts were centred after the last touch.
  focus : Point
  velocity : Velocity.Tracker
  alarms : Alarms
  deriving DecidableEq

namespace Stream

-- Calls off the tap, and with it all alarms. The consumer is told unless the tap was
-- off already or has become a long press.
def cancelTap (s : Stream) (t : ContactTable) (time : Time) : List Gesture × Stream :=
  match s.tap with
  | .possible =>
    ((t.acting?.map fun c => gestureAt t time .tapCancel c.place).toList,
      { s with tap := .off, alarms := Alarms.off })
  | _ => ([], { s with alarms := Alarms.off })

-- Measures travel and velocity anew from `focus`, as when the number of contacts
-- changes. A finger that joins or leaves does not count as movement.
def restart (s : Stream) (time : Time) (focus : Point) : Stream :=
  { s with start := focus, focus := focus, velocity := Velocity.Tracker.start time focus }

-- Begins a scroll once the contacts have left the slop region.
def beginScroll (s : Stream) (slop : Scalar) (t : ContactTable) (time : Time) :
    List Gesture × Stream :=
  let focus := t.focus
  if !s.scrolling && s.tap ≠ .long && slop < focus.location.distance s.start then
    let (cancelled, s) := s.cancelTap t time
    (cancelled ++ [gestureAt t time (.scrollBegin (focus.location - s.start)) focus],
      { s with scrolling := true })
  else ([], s)

-- Reports how far a scroll moved since the last touch.
def updateScroll (s : Stream) (t : ContactTable) (time : Time) : List Gesture :=
  let focus := t.focus
  let delta := focus.location - s.focus
  if s.scrolling && !delta.same Point.origin then
    [gestureAt t time (.scrollUpdate delta) focus]
  else []

def follow (s : Stream) (time : Time) (focus : Point) : Stream :=
  { s with focus := focus, velocity := s.velocity.add time focus }

def scroll (s : Stream) (slop : Scalar) (t : ContactTable) (time : Time) :
    List Gesture × Stream :=
  let (begun, s) := s.beginScroll slop t time
  (begun ++ s.updateScroll t time, s.follow time t.focus.location)

-- Lets one alarm ring. It is only heard while the stream can complete as a tap.
def ring (s : Stream) (alarm : Alarm) (deadline : Time) : List Gesture × Stream :=
  let gesture (payload : Gesture.Payload) : Gesture :=
    { payload, contactId := s.press.contactId, tool := s.press.tool, time := deadline,
      place := s.press.place, contactCount := 1,
      bounds := Rect.ofPoint s.press.place.location, synthesized := false,
      eventId := s.press.eventId, nonBlocking := false }
  match s.tap, alarm with
  | .possible, .showPress => ([gesture .showPress], s)
  | .possible, .longPress =>
    ([gesture .longPress], { s with tap := .long, alarms := Alarms.off })
  | _, _ => ([], s)

-- Lets up to so many alarms ring that are due at `now`, the earliest first.
def ringDue (s : Stream) (now : Time) : Nat → List Gesture × Stream
  | 0 => ([], s)
  | rounds + 1 =>
    match s.alarms.takeDue? now with
    | none => ([], s)
    | some (alarm, deadline, rest) =>
      let (first, s) := { s with alarms := rest }.ring alarm deadline
      let (others, s) := s.ringDue now rounds
      (first ++ others, s)

-- Lets all alarms ring that are due at `now`. There are no more than two.
def tick (s : Stream) (now : Time) : List Gesture × Stream := s.ringDue now 2

end Stream

end TouchGestures.Detector
