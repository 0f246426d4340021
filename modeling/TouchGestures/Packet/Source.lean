import TouchGestures.ContactTable

namespace TouchGestures.Packet

-- What the gestures of a packet come from.
inductive Source
  | undetermined
  | unattributable
  | sequenceStart
  | sequenceEnd
  | sequenceCancel
  | touchStart
  | touchMove
  | touchEnd
  | timeout
  deriving DecidableEq

namespace Source

def ofAction : Action → Source
  | .began => .sequenceStart
  | .joined => .touchStart
  | .moved => .touchMove
  | .left => .touchEnd
  | .ended => .sequenceEnd
  | .cancelled => .sequenceCancel

def label : Source → String
  | .undetermined => "Undefined"
  | .unattributable => "Invalid"
  | .sequenceStart => "TouchSequenceStart"
  | .sequenceEnd => "TouchSequenceEnd"
  | .sequenceCancel => "TouchSequenceCancel"
  | .touchStart => "TouchStart"
  | .touchMove => "TouchMove"
  | .touchEnd => "TouchEnd"
  | .timeout => "TouchTimeout"

-- Whether a packet from this source waits for the verdict on a touch.
def isTouch : Source → Bool
  | .undetermined | .unattributable | .timeout => false
  | _ => true

-- Whether the stream of touches is over after this source.
def closesSequence : Source → Bool
  | .sequenceEnd | .sequenceCancel => true
  | _ => false

theorem isTouch_ofAction (action : Action) : (ofAction action).isTouch = true := by
  cases action <;> rfl

theorem closesSequence_ofAction (action : Action) :
    (ofAction action).closesSequence = true ↔ action = .ended ∨ action = .cancelled := by
  cases action <;> simp [ofAction, closesSequence]

end Source

end TouchGestures.Packet
