import TouchGestures.Point

namespace TouchGestures

-- An axis-aligned rectangle, given by its top left corner and its extent.
structure Rect where
  x : Scalar
  y : Scalar
  width : Scalar
  height : Scalar
  deriving DecidableEq

namespace Rect

def zero : Rect := ⟨0, 0, 0, 0⟩

def right (r : Rect) : Scalar := r.x + r.width

def bottom (r : Rect) : Scalar := r.y + r.height

def ofPoint (p : Point) : Rect := ⟨p.x, p.y, 0, 0⟩

-- The rectangle around `center` that reaches half the extent to either side.
def ofCenter (center : Point) (halfWidth halfHeight : Scalar) : Rect :=
  ⟨center.x - halfWidth, center.y - halfHeight, halfWidth * 2, halfHeight * 2⟩

def union (r s : Rect) : Rect :=
  let x := r.x.lesser s.x
  let y := r.y.lesser s.y
  ⟨x, y, r.right.greater s.right - x, r.bottom.greater s.bottom - y⟩

def unionPoint (r : Rect) (p : Point) : Rect := r.union (ofPoint p)

def center (r : Rect) : Point := ⟨r.x + r.width / 2, r.y + r.height / 2⟩

-- Whether a point lies inside, edges included.
def contains (r : Rect) (p : Point) : Bool :=
  p.x ≥ r.x && p.x ≤ r.right && p.y ≥ r.y && p.y ≤ r.bottom

def same (r s : Rect) : Bool :=
  r.x == s.x && r.y == s.y && r.width == s.width && r.height == s.height

end Rect

end TouchGestures
