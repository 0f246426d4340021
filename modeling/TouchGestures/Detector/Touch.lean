import TouchGestures.Detector.Handlers

namespace TouchGestures.Detector

-- Whether a change has to be turned down: it needs a stream that is not there, or it is
-- older than the one before. Only first presses and cancels stand on their own.
def refuses (d : Detector) (change : Change) : Bool :=
  match change.action with
  | .began | .cancelled => false
  | _ => d.stream.isNone || d.lastTime.any (change.time < ·)

def handle (d : Detector) (t : ContactTable) (change : Change) : List Gesture × Detector :=
  match change.action, d.stream with
  | .began, _ => d.begin t change.time
  | _, none => ([], d)
  | .joined, some s => d.join s t change.time
  | .moved, some s => d.move s t change.time
  | .left, some s => d.leave s t change.time
  | .ended, some s => d.finish s t change.time
  | .cancelled, some s => d.abort s t change.time

-- Detects the gestures of the last touch of a table. Nothing happens to the detector
-- when the touch is turned down.
def touch (d : Detector) (t : ContactTable) : Option (List Gesture × Detector) :=
  match t.latest with
  | none => none
  | some change =>
    if d.refuses change then none
    else some ({ d with lastTime := some change.time }.handle t change)

def tick (d : Detector) (now : Time) : List Gesture × Detector :=
  match d.stream with
  | none => ([], d)
  | some s =>
    let (gestures, s) := s.tick now
    (gestures, { d with stream := some s })

end TouchGestures.Detector
