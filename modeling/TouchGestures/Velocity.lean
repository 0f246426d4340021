import TouchGestures.Point
import TouchGestures.Time

namespace TouchGestures.Velocity

-- How far back a sample still counts.
def window : Duration := Duration.milliseconds 100

-- The velocity of one step, at the time the step was complete.
structure Sample where
  time : Time
  velocity : Point
  deriving DecidableEq

-- Follows a point. The samples are oldest first.
structure Tracker where
  time : Time
  position : Point
  samples : List Sample := []
  deriving DecidableEq

namespace Tracker

def start (time : Time) (position : Point) : Tracker := ⟨time, position, []⟩

-- The samples that a step adds: one, unless no time has passed.
def step (t : Tracker) (time : Time) (position : Point) : List Sample :=
  let span := (elapsed t.time time).seconds
  if 0 < span then [⟨time, (position - t.position).divide span⟩] else []

-- Follows the point to a new position and drops the samples that are too old by then.
def add (t : Tracker) (time : Time) (position : Point) : Tracker where
  time := time
  position := position
  samples := (t.samples ++ t.step time position).dropWhile fun s => window < elapsed s.time time

-- The average over the samples in the window, or zero without any.
def velocity (t : Tracker) (now : Time) : Point :=
  let recent := t.samples.filter fun s => elapsed s.time now ≤ window
  if recent.isEmpty then Point.origin
  else (recent.foldl (fun sum s => sum + s.velocity) Point.origin).divide recent.length.toFloat32

end Tracker

end TouchGestures.Velocity
