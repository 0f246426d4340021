import TouchGestures.Detector.Stream

namespace TouchGestures

namespace Detector

-- A completed tap that the next press may turn into a double tap.
structure LastTap where
  time : Time
  location : Point
  deriving DecidableEq

end Detector

-- Recognizes the gestures of one consumer. `initialSpan` is the span of the contacts
-- when their number last changed, and `lastSpan` the span that was last reported.
structure Detector where
  settings : ChannelSettings
  stream : Option Detector.Stream := none
  lastTime : Option Time := none
  lastTap : Option Detector.LastTap := none
  initialSpan : Scalar := 0
  lastSpan : Scalar := 0
  deriving DecidableEq

namespace Detector

def nextDeadline (d : Detector) : Option Time := d.stream.bind (·.alarms.next?)

def endStream (d : Detector) : Detector := { d with stream := none }

-- Forgets all touches without telling anyone.
def reset (d : Detector) : Detector := { d with stream := none, lastTap := none, lastTime := none }

-- Takes over new settings. A stream under way keeps its state, except that it cannot
-- become a double tap when those are switched off.
def configure (d : Detector) (settings : ChannelSettings) : Detector :=
  { d with
    settings
    stream := d.stream.map fun s => { s with doubleTap := s.doubleTap && settings.doubleTap } }

-- Switches double taps on or off. Switching them off also forgets the last tap.
def setDoubleTap (d : Detector) (enabled : Bool) : Detector :=
  let d := d.configure { d.settings with doubleTap := enabled }
  if enabled then d else { d with lastTap := none }

end Detector

end TouchGestures
