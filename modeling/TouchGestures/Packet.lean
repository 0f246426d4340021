import TouchGestures.Gesture
import TouchGestures.Violation

namespace TouchGestures

namespace Packet

-- What the host said about the touch behind a packet: nothing yet, that the consumer
-- handled the touch itself, or that it did not.
inductive Verdict
  | pending
  | consumed
  | unconsumed
  deriving DecidableEq

end Packet

-- The gestures of one touch or one alarm, in the order in which they go out.
structure Packet where
  source : Packet.Source
  time : Time
  place : Place
  eventId : EventId
  verdict : Packet.Verdict
  gestures : List Gesture
  deriving DecidableEq

namespace Packet

def ofTouch (t : ContactTable) : Except Violation Packet :=
  match t.latest, t.acting? with
  | none, _ => .error .noTouchEvent
  | some _, none => .error (.invalidContactCount t.count)
  | some change, some contact =>
    .ok ⟨Source.ofAction change.action, change.time, contact.place, change.eventId, .pending, []⟩

-- The packet of an alarm. It waits for no touch and keeps the attribution of its
-- gesture.
def ofTimeout (g : Gesture) : Packet :=
  ⟨.timeout, g.time, g.place, g.eventId, .unconsumed, [g]⟩

-- Appends a gesture and attributes it to the touch of the packet.
def push (p : Packet) (g : Gesture) : Packet :=
  { p with gestures := p.gestures ++ [{ g with eventId := p.eventId }] }

def pushAll (p : Packet) (gestures : List Gesture) : Packet := gestures.foldl push p

def isPending (p : Packet) : Bool := p.verdict = .pending

def isConsumed (p : Packet) : Bool := p.verdict = .consumed

-- Settles the verdict, once.
def ack (p : Packet) (consumed nonBlocking : Bool) : Except Violation Packet :=
  if p.isPending then
    .ok { p with
      verdict := if consumed then .consumed else .unconsumed
      gestures := p.gestures.map fun g => { g with nonBlocking } }
  else .error (.alreadyAcked p.eventId)

theorem pushAll_eq (p : Packet) (gestures : List Gesture) :
    p.pushAll gestures =
      { p with
        gestures := p.gestures ++ gestures.map fun g => { g with eventId := p.eventId } } := by
  unfold pushAll
  induction gestures generalizing p with
  | nil => simp
  | cons g rest ih => simp [ih, push]

theorem isPending_of_ack {p q : Packet} {consumed nonBlocking : Bool}
    (h : p.ack consumed nonBlocking = .ok q) : q.isPending = false := by
  unfold ack at h
  split at h
  · cases h
    cases consumed <;> rfl
  · cases h

end Packet

end TouchGestures
