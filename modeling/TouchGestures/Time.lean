import TouchGestures.Scalar

namespace TouchGestures

-- A moment, in nanoseconds from an arbitrary zero.
abbrev Time := Int

-- A length of time, in nanoseconds.
abbrev Duration := Nat

namespace Duration

def milliseconds (count : Nat) : Duration := count * 1000000

-- The length in seconds. Whole seconds and the rest are rounded on their own before
-- they are added.
def seconds (d : Duration) : Scalar :=
  (d / 1000000000).toFloat32 + (d % 1000000000).toFloat32 / (1000000000 : Nat).toFloat32

end Duration

-- The time from `earlier` to `later`. It is zero when the clock went back.
def elapsed (earlier later : Time) : Duration := (later - earlier).toNat

-- What a clock shows, reading by reading. It may stand still, but it never goes back.
structure Clock where
  read : Nat → Time
  forward : ∀ n, read n ≤ read (n + 1)

namespace Clock

def still (time : Time) : Clock := ⟨fun _ => time, fun _ => Int.le_refl _⟩

def now (clock : Clock) : Time := clock.read 0

-- The clock once it was read.
def rest (clock : Clock) : Clock :=
  ⟨fun n => clock.read (n + 1), fun n => clock.forward (n + 1)⟩

-- The clock once it was read so many times.
def drop (clock : Clock) : Nat → Clock
  | 0 => clock
  | count + 1 => clock.rest.drop count

-- Some things in turn, each with what the clock shows when it is read for it.
def stamp {α : Type} (clock : Clock) : List α → List (Time × α)
  | [] => []
  | a :: rest => (clock.now, a) :: clock.rest.stamp rest

@[simp] theorem map_snd_stamp {α : Type} (clock : Clock) (items : List α) :
    (clock.stamp items).map (·.2) = items := by
  induction items generalizing clock with
  | nil => rfl
  | cons a rest ih => exact congrArg (a :: ·) (ih clock.rest)

@[simp] theorem now_still (time : Time) : (still time).now = time := rfl

@[simp] theorem rest_still (time : Time) : (still time).rest = still time := rfl

end Clock

end TouchGestures
