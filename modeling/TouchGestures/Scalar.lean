namespace TouchGestures

-- Coordinates, radii, spans and velocities are single precision numbers.
abbrev Scalar := Float32

namespace Scalar

-- The lesser of two numbers. NaN yields to the other operand, so one unknown extent
-- does not erase a known one.
def lesser (a b : Scalar) : Scalar :=
  if a.isNaN then b
  else if b.isNaN then a
  else if b < a then b
  else a

-- The greater of two numbers, with NaN treated as in `lesser`.
def greater (a b : Scalar) : Scalar :=
  if a.isNaN then b
  else if b.isNaN then a
  else if a < b then b
  else a

end Scalar

end TouchGestures
