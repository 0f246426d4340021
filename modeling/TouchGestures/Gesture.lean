import TouchGestures.Gesture.Kind
import TouchGestures.Rect
import TouchGestures.Touch

namespace TouchGestures

namespace Gesture

-- A kind of gesture with what only that kind carries.
inductive Payload
  | tapDown
  | showPress
  | tap (count : Nat)
  | doubleTap
  | tapCancel
  | longPress
  | longTap
  | scrollBegin (hint : Point)
  | scrollUpdate (delta : Point)
  | scrollEnd
  | flingStart (velocity : Point)
  | pinchBegin
  | pinchUpdate (scale : Scalar)
  | pinchEnd
  deriving DecidableEq

def Payload.kind : Payload → Kind
  | .tapDown => .tapDown
  | .showPress => .showPress
  | .tap _ => .tap
  | .doubleTap => .doubleTap
  | .tapCancel => .tapCancel
  | .longPress => .longPress
  | .longTap => .longTap
  | .scrollBegin _ => .scrollBegin
  | .scrollUpdate _ => .scrollUpdate
  | .scrollEnd => .scrollEnd
  | .flingStart _ => .flingStart
  | .pinchBegin => .pinchBegin
  | .pinchUpdate _ => .pinchUpdate
  | .pinchEnd => .pinchEnd

end Gesture

-- A gesture with its circumstances. `eventId` names the touch it is attributed to, and
-- `nonBlocking` tells whether that touch went out without waiting for the consumer.
structure Gesture where
  payload : Gesture.Payload
  contactId : ContactId
  tool : Tool
  time : Time
  place : Place
  contactCount : Nat
  bounds : Rect
  synthesized : Bool
  eventId : EventId
  nonBlocking : Bool
  deriving DecidableEq

namespace Gesture

def kind (g : Gesture) : Kind := g.payload.kind

end Gesture

end TouchGestures
