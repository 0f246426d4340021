import TouchGestures.Scalar

namespace TouchGestures

-- A position, or the offset between two positions. The x-axis points right and the
-- y-axis down.
structure Point where
  x : Scalar
  y : Scalar
  deriving DecidableEq

namespace Point

def origin : Point := ⟨0, 0⟩

instance : Add Point := ⟨fun a b => ⟨a.x + b.x, a.y + b.y⟩⟩

instance : Sub Point := ⟨fun a b => ⟨a.x - b.x, a.y - b.y⟩⟩

-- Numeric equality. The two zeros agree, and a point with a NaN differs from itself.
def same (a b : Point) : Bool := a.x == b.x && a.y == b.y

def offset (a : Point) (dx dy : Scalar) : Point := ⟨a.x + dx, a.y + dy⟩

def scale (a : Point) (factor : Scalar) : Point := ⟨a.x * factor, a.y * factor⟩

def divide (a : Point) (divisor : Scalar) : Point := ⟨a.x / divisor, a.y / divisor⟩

def distanceSquared (a b : Point) : Scalar :=
  let dx := a.x - b.x
  let dy := a.y - b.y
  dx * dx + dy * dy

def distance (a b : Point) : Scalar := (a.distanceSquared b).sqrt

def length (a : Point) : Scalar := a.distance origin

theorem add_def (a b : Point) : a + b = ⟨a.x + b.x, a.y + b.y⟩ := rfl

theorem sub_def (a b : Point) : a - b = ⟨a.x - b.x, a.y - b.y⟩ := rfl

end Point

-- Where something happened, in the coordinates of the consumer and in those of the
-- root, which all consumers share.
structure Place where
  location : Point
  root : Point
  deriving DecidableEq

namespace Place

def origin : Place := ⟨Point.origin, Point.origin⟩

instance : Add Place := ⟨fun a b => ⟨a.location + b.location, a.root + b.root⟩⟩

def divide (a : Place) (divisor : Scalar) : Place :=
  ⟨a.location.divide divisor, a.root.divide divisor⟩

end Place

end TouchGestures
