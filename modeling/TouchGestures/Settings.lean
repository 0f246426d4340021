import TouchGestures.Scalar
import TouchGestures.Time

namespace TouchGestures

-- The thresholds of gesture detection. Distances are in pixels and velocities in
-- pixels per second.
structure Thresholds where
  -- How far a touch may travel before it scrolls.
  touchSlop : Scalar := 15
  -- How far apart consecutive taps may lie.
  doubleTapSlop : Scalar := 100
  -- The release velocity that turns the end of a scroll into a fling.
  minimumFlingVelocity : Scalar := 30
  -- The velocity to which flings are cut down.
  maximumFlingVelocity : Scalar := 20000
  showPressDelay : Duration := Duration.milliseconds 150
  longPressDelay : Duration := Duration.milliseconds 1000
  -- How much time may pass between consecutive taps.
  doubleTapTimeout : Duration := Duration.milliseconds 400
  -- The change of span that starts a pinch.
  minimumPinchDelta : Scalar := 30
  deriving DecidableEq

-- The settings of one consumer's channel. Without double taps, consecutive taps are
-- numbered instead.
structure ChannelSettings where
  thresholds : Thresholds := {}
  doubleTap : Bool := false
  pinch : Bool := true
  contactLimit : UInt64 := 16
  deriving DecidableEq

-- The settings of a router. A touch is grouped with the contacts of a consumer only
-- when it lands within `separation` of one of them.
structure Settings where
  channel : ChannelSettings := {}
  separation : Scalar := 150
  deriving DecidableEq

end TouchGestures
