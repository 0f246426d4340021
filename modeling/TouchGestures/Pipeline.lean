import TouchGestures.Detector.Touch
import TouchGestures.Release.Queue

namespace TouchGestures

-- What became of a touch. A touch that was not accepted must not be acknowledged.
structure TouchResult where
  accepted : Bool := false
  -- The contacts have left the slop region since the stream began.
  slopExceeded : Bool := false
  deriving DecidableEq

-- Detection followed by the queue from which gestures are released.
structure Pipeline where
  detector : Detector
  queue : Release.Queue := {}
  slopExceeded : Bool := false
  deriving DecidableEq

namespace Pipeline

def ofSettings (settings : ChannelSettings) : Pipeline := { detector := { settings } }

def result (p : Pipeline) (accepted : Bool) : TouchResult := ⟨accepted, p.slopExceeded⟩

-- Takes over a detection: a new stream is inside its slop region, and leaves it when a
-- scroll begins.
def detected (p : Pipeline) (action : Action) (gestures : List Gesture) (detector : Detector) :
    Pipeline :=
  { p with
    detector
    slopExceeded :=
      (p.slopExceeded && action ≠ .began) || gestures.any fun g => g.kind = .scrollBegin }

-- Detects the gestures of the last touch of a table and queues them. The gestures given
-- back are those that can go out at once. A packet that cannot be built or queued is a
-- violation, but detection has taken place by then.
def touch (p : Pipeline) (t : ContactTable) :
    Except Violation (TouchResult × List Gesture) × Pipeline :=
  match p.detector.touch t with
  | none => (.ok (p.result false, []), p)
  | some (gestures, detector) =>
    let p := p.detected t.action gestures detector
    match (Packet.ofTouch t).bind fun packet => p.queue.submit (packet.pushAll gestures) with
    | .error violation => (.error violation, p)
    | .ok (released, queue) => (.ok (p.result true, released), { p with queue })

def ack (p : Pipeline) (id : EventId) (consumed nonBlocking : Bool) :
    Except Violation (List Gesture × Pipeline) :=
  (p.queue.ack id consumed nonBlocking).map fun (released, queue) => (released, { p with queue })

-- Submits the gestures of alarms, each in a packet of its own.
def submitTimeouts (queue : Release.Queue) :
    List Gesture → Except Violation (List Gesture × Release.Queue)
  | [] => .ok ([], queue)
  | g :: rest => do
    let (first, queue) ← queue.submit (Packet.ofTimeout g)
    let (others, queue) ← submitTimeouts queue rest
    .ok (first ++ others, queue)

def tick (p : Pipeline) (now : Time) : Except Violation (List Gesture × Pipeline) :=
  let (gestures, detector) := p.detector.tick now
  (submitTimeouts p.queue gestures).map fun (released, queue) =>
    (released, { p with detector, queue })

def nextDeadline (p : Pipeline) : Option Time := p.detector.nextDeadline

def configure (p : Pipeline) (settings : ChannelSettings) : Pipeline :=
  { p with detector := p.detector.configure settings }

def setDoubleTap (p : Pipeline) (enabled : Bool) : Pipeline :=
  { p with detector := p.detector.setDoubleTap enabled }

def forgetHistory (p : Pipeline) : Pipeline := { p with queue := p.queue.forgetHistory }

def resetDetection (p : Pipeline) : Pipeline :=
  { p with detector := p.detector.reset, slopExceeded := false }

def hasPending (p : Pipeline) : Bool := !p.queue.isEmpty

theorem touch_of_detector_touch_eq_none {p : Pipeline} {t : ContactTable}
    (h : p.detector.touch t = none) : p.touch t = (.ok (p.result false, []), p) := by
  simp [touch, h]

end Pipeline

end TouchGestures
