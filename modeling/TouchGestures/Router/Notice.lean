import TouchGestures.Channel

namespace TouchGestures

-- What a consumer is told: a gesture, or a touch that was made up on its behalf.
inductive Message
  | gesture (g : Gesture)
  | touch (t : Touch)
  deriving DecidableEq

-- A message with the consumer it is meant for.
structure Notice where
  consumer : ConsumerId
  message : Message
  deriving DecidableEq

-- The host's side of delivery. A helper serves some consumers, and knows which made up
-- touches they handle themselves.
structure Helper where
  serves : ConsumerId → Bool
  handles : ConsumerId → Touch → Bool

abbrev HelperId := Nat

end TouchGestures
