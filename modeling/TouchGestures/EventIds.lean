namespace TouchGestures

-- The number by which a touch and its acknowledgement are matched. Zero stands for no
-- touch.
abbrev EventId := UInt32

-- The source of event numbers. It counts up and wraps around.
structure EventIds where
  next : EventId := 1
  deriving DecidableEq

namespace EventIds

-- Takes the next value of the counter, zero included.
def draw (ids : EventIds) : EventId × EventIds :=
  (ids.next, ⟨ids.next + 1⟩)

-- Takes the next number that is not zero. After a zero the counter stands at one, so a
-- second draw is enough.
def fresh (ids : EventIds) : EventId × EventIds :=
  match ids.draw with
  | (0, rest) => rest.draw
  | (id, rest) => (id, rest)

theorem fresh_of_ne_zero {ids : EventIds} (h : ids.next ≠ 0) :
    ids.fresh = (ids.next, ⟨ids.next + 1⟩) := by
  unfold fresh draw
  split
  · next heq => exact absurd (congrArg Prod.fst heq) h
  · next heq => exact heq.symm

theorem fresh_zero : fresh ⟨0⟩ = (1, ⟨2⟩) := by decide

theorem fresh_ne_zero (ids : EventIds) : ids.fresh.1 ≠ 0 := by
  by_cases h : ids.next = 0
  · obtain ⟨next⟩ := ids
    subst h
    simp [fresh_zero]
  · simpa [fresh_of_ne_zero h] using h

end EventIds

end TouchGestures
