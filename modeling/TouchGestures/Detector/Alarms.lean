import TouchGestures.Time

namespace TouchGestures.Detector

-- What a detector waits for while a contact rests.
inductive Alarm
  | showPress
  | longPress
  deriving DecidableEq

-- The alarms that are set, with their deadlines.
structure Alarms where
  showPress : Option Time := none
  longPress : Option Time := none
  deriving DecidableEq

namespace Alarms

def off : Alarms := {}

def next? (a : Alarms) : Option Time :=
  match a.showPress, a.longPress with
  | some s, some l => some (min s l)
  | some s, none => some s
  | none, l => l

-- Takes out the earliest alarm that is due at `now`, with its deadline. On a tie the
-- press is shown before it counts as long.
def takeDue? (a : Alarms) (now : Time) : Option (Alarm × Time × Alarms) :=
  match a.showPress.filter (· ≤ now), a.longPress.filter (· ≤ now) with
  | some s, some l =>
    if s ≤ l then some (.showPress, s, { a with showPress := none })
    else some (.longPress, l, { a with longPress := none })
  | some s, none => some (.showPress, s, { a with showPress := none })
  | none, some l => some (.longPress, l, { a with longPress := none })
  | none, none => none

-- An alarm that is taken out was set for its deadline, and the deadline has come.
theorem le_of_takeDue? {a rest : Alarms} {now deadline : Time} {alarm : Alarm}
    (h : a.takeDue? now = some (alarm, deadline, rest)) : deadline ≤ now := by
  unfold takeDue? at h
  split at h
  · next hs hl =>
    have hs := (Option.filter_eq_some_iff.mp hs).2
    have hl := (Option.filter_eq_some_iff.mp hl).2
    split at h <;> simp_all
  · next hs _ =>
    have hs := (Option.filter_eq_some_iff.mp hs).2
    simp_all
  · next _ hl =>
    have hl := (Option.filter_eq_some_iff.mp hl).2
    simp_all
  · cases h

theorem takeDue?_off (now : Time) : off.takeDue? now = none := rfl

end Alarms

end TouchGestures.Detector
