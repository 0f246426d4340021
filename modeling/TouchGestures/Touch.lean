import TouchGestures.EventIds
import TouchGestures.Point
import TouchGestures.Time

namespace TouchGestures

-- The number a digitizer gives a contact for as long as it is down.
abbrev ContactId := Int

-- The digitizer that reports a contact.
abbrev DeviceId := Int

inductive Tool
  | unknown
  | finger
  | stylus
  | mouse
  | eraser
  deriving DecidableEq

-- What is known of a contact apart from where it is. The radii are half the extent of
-- the contact area, and the force is NaN when it is unknown.
structure ContactDetails where
  id : ContactId
  tool : Tool
  radiusX : Scalar
  radiusY : Scalar
  force : Scalar
  deriving DecidableEq

namespace Touch

inductive Kind
  | pressed
  | moved
  | released
  | cancelled
  deriving DecidableEq

end Touch

-- A change of exactly one contact. Synthesized touches come from this library and not
-- from a digitizer.
structure Touch where
  kind : Touch.Kind
  contact : ContactDetails
  place : Place
  device : DeviceId
  time : Time
  id : EventId
  synthesized : Bool
  deriving DecidableEq

end TouchGestures
