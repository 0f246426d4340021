namespace TouchGestures.Gesture

-- The kinds of gesture. Taps, scrolls and pinches each have an opener, which comes
-- before every other gesture of their family.
inductive Kind
  | tapDown
  | showPress
  | tap
  | doubleTap
  | tapCancel
  | longPress
  | longTap
  | scrollBegin
  | scrollUpdate
  | scrollEnd
  | flingStart
  | pinchBegin
  | pinchUpdate
  | pinchEnd
  deriving DecidableEq

namespace Kind

-- The opener of the family, for all kinds but the openers. A consumer that was not
-- shown the opener is not shown the rest.
def antecedent : Kind → Option Kind
  | .showPress | .tap | .doubleTap | .tapCancel | .longPress | .longTap => some .tapDown
  | .scrollUpdate | .scrollEnd | .flingStart => some .scrollBegin
  | .pinchUpdate | .pinchEnd => some .pinchBegin
  | .tapDown | .scrollBegin | .pinchBegin => none

-- Whether the kind only closes what is under way. Such a gesture goes out even when
-- the consumer handled the touch behind it.
def isTerminating : Kind → Bool
  | .scrollEnd | .flingStart | .pinchEnd | .tapCancel => true
  | _ => false

-- Whether the kind settles what becomes of a tap.
def endsTap : Kind → Bool
  | .tap | .doubleTap | .tapCancel | .longTap => true
  | _ => false

def endsScroll : Kind → Bool
  | .scrollEnd | .flingStart => true
  | _ => false

-- An opener has no opener of its own, so families are one level deep.
theorem antecedent_of_antecedent {k o : Kind} (h : k.antecedent = some o) :
    o.antecedent = none := by
  cases k <;> cases h <;> rfl

end Kind

end TouchGestures.Gesture
