import TouchGestures.Pipeline

namespace TouchGestures

-- The number of an owner of touches, such as a window.
abbrev ConsumerId := UInt64

namespace Channel

-- The tap that was released last, with its number in a row of consecutive taps.
structure CountedTap where
  time : Time
  location : Point
  count : Nat
  deriving DecidableEq

-- The number of a tap after `previous`: the next one up to three and then one again, if
-- it is close enough in time and space, and otherwise one.
def tapNumber (thresholds : Thresholds) (previous : Option CountedTap) (g : Gesture) : Nat :=
  match previous with
  | none => 1
  | some tap =>
    if elapsed tap.time g.time ≤ thresholds.doubleTapTimeout
        && tap.location.distanceSquared g.place.location
          ≤ thresholds.doubleTapSlop * thresholds.doubleTapSlop then
      tap.count % 3 + 1
    else 1

def number (thresholds : Thresholds) (previous : Option CountedTap) (g : Gesture) :
    Gesture × Option CountedTap :=
  match g.payload with
  | .tap _ =>
    let count := tapNumber thresholds previous g
    ({ g with payload := .tap count }, some ⟨g.time, g.place.location, count⟩)
  | _ => (g, previous)

def numberAll (thresholds : Thresholds) (previous : Option CountedTap) :
    List Gesture → List Gesture × Option CountedTap
  | [] => ([], previous)
  | g :: rest =>
    let (g, previous) := number thresholds previous g
    let (rest, previous) := numberAll thresholds previous rest
    (g :: rest, previous)

end Channel

-- Everything that belongs to the touches of one consumer. Gestures that go out while a
-- touch or a verdict is handled are collected in `released`.
structure Channel where
  consumer : ConsumerId
  contacts : ContactTable
  pipeline : Pipeline
  released : List Gesture := []
  previousTap : Option Channel.CountedTap := none
  deriving DecidableEq

namespace Channel

def ofSettings (consumer : ConsumerId) (settings : ChannelSettings) : Channel where
  consumer := consumer
  contacts := { limit := settings.contactLimit }
  pipeline := Pipeline.ofSettings settings

def thresholds (c : Channel) : Thresholds := c.pipeline.detector.settings.thresholds

def numberTaps (c : Channel) (gestures : List Gesture) : List Gesture × Channel :=
  let (gestures, previousTap) := numberAll c.thresholds c.previousTap gestures
  (gestures, { c with previousTap })

def collect (c : Channel) (gestures : List Gesture) : Channel :=
  let (gestures, c) := c.numberTaps gestures
  { c with released := c.released ++ gestures }

def drain (c : Channel) : List Gesture × Channel := (c.released, { c with released := [] })

-- Handles a touch. One that does not fit the contacts, or that detection turns down, is
-- not accepted, and the contacts stay as they were.
def touch (c : Channel) (touch : Touch) : Except Violation (TouchResult × Channel) :=
  match c.contacts.touch touch with
  | (false, contacts) => .ok ({}, { c with contacts })
  | (true, contacts) =>
    match c.pipeline.touch contacts with
    | (.error violation, _) => .error violation
    | (.ok (result, gestures), pipeline) =>
      let c := { c with pipeline }.collect gestures
      .ok (result, if result.accepted then { c with contacts := contacts.settle } else c)

def ack (c : Channel) (id : EventId) (consumed nonBlocking : Bool) :
    Except Violation Channel :=
  (c.pipeline.ack id consumed nonBlocking).map fun (gestures, pipeline) =>
    { c with pipeline }.collect gestures

-- Takes over a contact that is down already. It is pressed anew on behalf of the
-- consumer, which is said to have handled the press, so no gesture comes of it.
def enter (c : Channel) (contact : Contact) (now : Time) (id : EventId) :
    Except Violation Channel := do
  let (result, c) ← c.touch (contact.synthesize .pressed now id)
  if result.accepted then c.ack id true false else .ok c

def tick (c : Channel) (now : Time) : Except Violation (List Gesture × Channel) :=
  (c.pipeline.tick now).map fun (gestures, pipeline) => { c with pipeline }.numberTaps gestures

def nextDeadline (c : Channel) : Option Time := c.pipeline.nextDeadline

def configure (c : Channel) (settings : ChannelSettings) : Channel :=
  { c with
    contacts := c.contacts.setLimit settings.contactLimit
    pipeline := c.pipeline.configure settings }

def reassign (c : Channel) (consumer : ConsumerId) : Channel := { c with consumer }

def setDoubleTap (c : Channel) (enabled : Bool) : Channel :=
  { c with pipeline := c.pipeline.setDoubleTap enabled }

def forgetHistory (c : Channel) : Channel := { c with pipeline := c.pipeline.forgetHistory }

theorem touch_of_not_accepted {c : Channel} {touch : Touch} {contacts : ContactTable}
    (h : c.contacts.touch touch = (false, contacts)) :
    c.touch touch = .ok ({}, { c with contacts }) := by
  simp [Channel.touch, h]

end Channel

end TouchGestures
