import TouchGestures.Datum
import TouchGestures.Rect
import TouchGestures.Settings

namespace TouchGestures

namespace Scalar

-- Only finite numbers can be written down. Others leave a gap.
def encode (x : Scalar) : Datum := if x.isFinite then .real x else .null

-- Any number will do. An integer is rounded to the nearest scalar.
def decode? : Datum → Option Scalar
  | .real x => some x
  | .integer n => some (Float32.ofInt n)
  | _ => none

end Scalar

-- Whole numbers are written without a fraction and have to fit in 64 bits.
def encodeWord (n : UInt64) : Datum := .integer n.toNat

def decodeWord? : Datum → Option UInt64
  | .integer n => if 0 ≤ n ∧ n.toNat < UInt64.size then some (UInt64.ofNat n.toNat) else none
  | _ => none

def decodeFlag? : Datum → Option Bool
  | .bool b => some b
  | _ => none

namespace Duration

-- Durations are written in whole milliseconds, of which the last 64 bits are kept.
def encode (d : Duration) : Datum := encodeWord (UInt64.ofNat (d / milliseconds 1))

def decode? (d : Datum) : Option Duration :=
  (decodeWord? d).map fun n => milliseconds n.toNat

end Duration

namespace Point

def encode (p : Point) : Datum := .record [("x", p.x.encode), ("y", p.y.encode)]

def decode? (d : Datum) : Option Point :=
  match d.fields? ["x", "y"] with
  | some [x, y] => do
    let x ← Scalar.decode? x
    let y ← Scalar.decode? y
    some ⟨x, y⟩
  | _ => none

end Point

namespace Rect

def encode (r : Rect) : Datum :=
  .record [("x", r.x.encode), ("y", r.y.encode), ("width", r.width.encode),
    ("height", r.height.encode)]

def decode? (d : Datum) : Option Rect :=
  match d.fields? ["x", "y", "width", "height"] with
  | some [x, y, width, height] => do
    let x ← Scalar.decode? x
    let y ← Scalar.decode? y
    let width ← Scalar.decode? width
    let height ← Scalar.decode? height
    some ⟨x, y, width, height⟩
  | _ => none

end Rect

namespace Thresholds

def fieldNames : List String :=
  ["touch_slop", "double_tap_slop", "minimum_fling_velocity", "maximum_fling_velocity",
    "show_press_timeout", "long_press_timeout", "double_tap_timeout", "min_pinch_span_delta"]

def encode (t : Thresholds) : Datum :=
  .record (fieldNames.zip
    [t.touchSlop.encode, t.doubleTapSlop.encode, t.minimumFlingVelocity.encode,
      t.maximumFlingVelocity.encode, t.showPressDelay.encode, t.longPressDelay.encode,
      t.doubleTapTimeout.encode, t.minimumPinchDelta.encode])

def decode? (d : Datum) : Option Thresholds :=
  match d.fields? fieldNames with
  | some [touchSlop, doubleTapSlop, minimumFling, maximumFling, showPress, longPress, doubleTap,
      pinch] => do
    let touchSlop ← Scalar.decode? touchSlop
    let doubleTapSlop ← Scalar.decode? doubleTapSlop
    let minimumFlingVelocity ← Scalar.decode? minimumFling
    let maximumFlingVelocity ← Scalar.decode? maximumFling
    let showPressDelay ← Duration.decode? showPress
    let longPressDelay ← Duration.decode? longPress
    let doubleTapTimeout ← Duration.decode? doubleTap
    let minimumPinchDelta ← Scalar.decode? pinch
    some
      { touchSlop, doubleTapSlop, minimumFlingVelocity, maximumFlingVelocity, showPressDelay,
        longPressDelay, doubleTapTimeout, minimumPinchDelta }
  | _ => none

end Thresholds

namespace ChannelSettings

def fieldNames : List String :=
  ["detector", "double_tap_enabled", "pinch_enabled", "max_touch_points"]

def encode (s : ChannelSettings) : Datum :=
  .record (fieldNames.zip
    [s.thresholds.encode, .bool s.doubleTap, .bool s.pinch, encodeWord s.contactLimit])

def decode? (d : Datum) : Option ChannelSettings :=
  match d.fields? fieldNames with
  | some [thresholds, doubleTap, pinch, contactLimit] => do
    let thresholds ← Thresholds.decode? thresholds
    let doubleTap ← decodeFlag? doubleTap
    let pinch ← decodeFlag? pinch
    let contactLimit ← decodeWord? contactLimit
    some { thresholds, doubleTap, pinch, contactLimit }
  | _ => none

end ChannelSettings

namespace Settings

def fieldNames : List String := ["provider", "max_separation_for_gesture_touches"]

def encode (s : Settings) : Datum :=
  .record (fieldNames.zip [s.channel.encode, s.separation.encode])

def decode? (d : Datum) : Option Settings :=
  match d.fields? fieldNames with
  | some [channel, separation] => do
    let channel ← ChannelSettings.decode? channel
    let separation ← Scalar.decode? separation
    some { channel, separation }
  | _ => none

end Settings

theorem decodeWord?_encodeWord (n : UInt64) : decodeWord? (encodeWord n) = some n := by
  have hlt : (n.toNat : Int).toNat < UInt64.size := n.toNat_lt
  simp only [encodeWord, decodeWord?]
  rw [if_pos ⟨Int.natCast_nonneg _, hlt⟩]
  simp

theorem Scalar.decode?_encode {x : Scalar} (h : x.isFinite = true) :
    decode? x.encode = some x := by
  simp [encode, decode?, h]

end TouchGestures
