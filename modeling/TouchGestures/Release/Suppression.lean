import TouchGestures.Gesture

namespace TouchGestures.Release

-- Which gestures of the current sequence the consumer must not see. Only openers are
-- remembered, since nothing else is anyone's antecedent.
structure Suppression where
  -- The consumer handled the first touch of the sequence.
  sequenceConsumed : Bool := false
  -- The consumer handled the touch whose gestures are released now.
  touchConsumed : Bool := false
  -- What became of the latest opener of each family.
  tapDownDropped : Bool := false
  scrollBeginDropped : Bool := false
  pinchBeginDropped : Bool := false
  deriving DecidableEq

namespace Suppression

-- Whether the latest gesture of this kind was dropped, for an opener.
def isDropped (s : Suppression) : Gesture.Kind → Bool
  | .tapDown => s.tapDownDropped
  | .scrollBegin => s.scrollBeginDropped
  | .pinchBegin => s.pinchBeginDropped
  | _ => false

def note (s : Suppression) (kind : Gesture.Kind) (dropped : Bool) : Suppression :=
  match kind with
  | .tapDown => { s with tapDownDropped := dropped }
  | .scrollBegin => { s with scrollBeginDropped := dropped }
  | .pinchBegin => { s with pinchBeginDropped := dropped }
  | _ => s

-- Takes in the verdict on the touch whose gestures are next. A first touch starts with
-- a clean slate.
def judge (s : Suppression) (consumed isStart : Bool) : Suppression :=
  if isStart then { sequenceConsumed := consumed, touchConsumed := consumed }
  else { s with touchConsumed := consumed }

-- Whether a gesture has to be dropped: its opener was, or its sequence is the
-- consumer's, or its touch is and it does not close anything.
def drops (s : Suppression) (kind : Gesture.Kind) : Bool :=
  kind.antecedent.any s.isDropped || s.sequenceConsumed
    || (s.touchConsumed && !kind.isTerminating)

-- Decides on a gesture and remembers the decision.
def decideOn (s : Suppression) (kind : Gesture.Kind) : Bool × Suppression :=
  (s.drops kind, s.note kind (s.drops kind))

theorem isDropped_note_self {s : Suppression} {kind : Gesture.Kind} (dropped : Bool)
    (h : kind.antecedent = none) : (s.note kind dropped).isDropped kind = dropped := by
  cases kind <;> simp_all [note, isDropped, Gesture.Kind.antecedent]

theorem isDropped_note_of_ne {s : Suppression} {kind other : Gesture.Kind} (dropped : Bool)
    (h : other ≠ kind) : (s.note kind dropped).isDropped other = s.isDropped other := by
  cases kind <;> cases other <;> simp_all [note, isDropped]

end Suppression

end TouchGestures.Release
