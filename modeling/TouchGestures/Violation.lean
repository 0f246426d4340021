import TouchGestures.Packet.Source

namespace TouchGestures

-- A breach of the order in which touches, packets and verdicts have to follow each
-- other. None of them can be recovered from.
inductive Violation
  -- The packet of this touch already has its verdict.
  | alreadyAcked (id : EventId)
  -- A verdict came while no packet was waiting for one.
  | noPendingPacket (id : EventId)
  -- A verdict came for a packet that is not next.
  | ackOutOfOrder (expected received : EventId)
  -- A packet from this source can neither be queued nor released.
  | unfilterableSource (source : Packet.Source)
  -- A packet was asked for before the first touch.
  | noTouchEvent
  -- The contact behind the last touch is gone. This is the number of those left.
  | invalidContactCount (count : Nat)
  deriving DecidableEq

namespace Violation

def message : Violation → String
  | alreadyAcked id => "packet for touch event " ++ toString id.toNat ++ " was acked twice"
  | noPendingPacket id =>
    "ack for touch event " ++ toString id.toNat ++ " with no pending packet"
  | ackOutOfOrder expected received =>
    "ack for touch event " ++ toString received.toNat ++ " arrived while "
      ++ toString expected.toNat ++ " is pending"
  | unfilterableSource source => "packet with source " ++ source.label ++ " cannot be filtered"
  | noTouchEvent => "no touch event to build a packet from"
  | invalidContactCount count =>
    "motion event has an invalid pointer count " ++ toString count

-- What all fatal messages start with, so that they are told from other failures.
def fatalLead : String := "gesture protocol violation: "

def fatalMessage (v : Violation) : String := fatalLead ++ v.message

end Violation

end TouchGestures
