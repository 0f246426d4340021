import TouchGestures.Proofs.Scalar.Normal
import TouchGestures.Velocity

namespace TouchGestures.Velocity

structure Fix where
  time : Time
  position : Point
  deriving DecidableEq

-- The fixes come in the order of their times, and none of them after `now`.
def InOrder (fixes : List Fix) (now : Time) : Prop :=
  (fixes.map (·.time) ++ [now]).Pairwise (· ≤ ·)

instance (fixes : List Fix) (now : Time) : Decidable (InOrder fixes now) :=
  inferInstanceAs (Decidable (List.Pairwise _ _))

theorem inOrder_singleton (fix : Fix) : InOrder [fix] fix.time := by
  simp [InOrder]

theorem InOrder.le {fixes : List Fix} {now : Time} (h : InOrder fixes now) :
    ∀ fix ∈ fixes, fix.time ≤ now := fun fix hfix =>
  (List.pairwise_append.mp h).2.2 fix.time (List.mem_map_of_mem hfix) now (by simp)

theorem InOrder.le_of_cons {start : Fix} {fixes : List Fix} {now : Time}
    (h : InOrder (start :: fixes) now) : ∀ fix ∈ fixes, fix.time ≤ now := fun fix hfix =>
  h.le fix (List.mem_cons_of_mem start hfix)

theorem InOrder.concat {fixes : List Fix} {last : Time} {fix : Fix} (h : InOrder fixes last)
    (hlast : last ≤ fix.time) : InOrder (fixes ++ [fix]) fix.time := by
  have hle : ∀ time ∈ fixes.map (·.time), time ≤ fix.time := by
    intro time htime
    obtain ⟨earlier, hearlier, rfl⟩ := List.mem_map.mp htime
    exact (h.le earlier hearlier).trans hlast
  have hsorted : (fixes.map (·.time)).Pairwise (· ≤ ·) := (List.pairwise_append.mp h).1
  rw [InOrder, List.map_append, List.append_assoc, List.pairwise_append]
  exact ⟨hsorted, by simp, by simpa using hle⟩

def between (first second : Fix) : Point :=
  (second.position - first.position).divide (elapsed first.time second.time).seconds

-- The mean of some velocities, added up one after the other, or zero without any.
def mean (velocities : List Point) : Point :=
  if velocities.isEmpty then Point.origin
  else (velocities.foldl (· + ·) Point.origin).divide velocities.length.toFloat32

-- The mean over all steps from fix to fix that take some time and are complete no longer ago
-- than the window.
def average (start : Fix) (fixes : List Fix) (now : Time) : Point :=
  let steps := ((start :: fixes).zip fixes).filter fun step =>
    step.1.time < step.2.time && elapsed step.2.time now ≤ window
  mean (steps.map fun step => between step.1 step.2)

-- Of the place of the start, only how far the first fix after it is from there counts.
theorem average_congr {start : Fix} {position : Point} {fixes : List Fix}
    (h : ∀ fix ∈ fixes.head?, fix.position - position = fix.position - start.position)
    (now : Time) : average ⟨start.time, position⟩ fixes now = average start fixes now := by
  cases fixes with
  | nil => rfl
  | cons fix rest =>
    have hstep : between ⟨start.time, position⟩ fix = between start fix := by
      rw [between, between, h fix rfl]
    simp only [average, List.zip_cons_cons, List.filter_cons]
    split
    · simp only [List.map_cons, hstep]
    · rfl

namespace Tracker

variable {t : Tracker} {fixes : List Fix} {now : Time}

def follow (start : Fix) (fixes : List Fix) : Tracker :=
  fixes.foldl (fun t fix => t.add fix.time fix.position) (Tracker.start start.time start.position)

theorem follow_concat (start : Fix) (fixes : List Fix) (fix : Fix) :
    follow start (fixes ++ [fix]) = (follow start fixes).add fix.time fix.position := by
  simp [follow]

def sample? (first second : Fix) : Option Sample :=
  if first.time < second.time then some ⟨second.time, between first second⟩ else none

theorem step_eq (t : Tracker) (fix : Fix) :
    t.step fix.time fix.position = (sample? ⟨t.time, t.position⟩ fix).toList := by
  have hspan : 0 < (elapsed t.time fix.time).seconds ↔ t.time < fix.time := by
    rw [Duration.seconds_pos_iff]
    grind [elapsed]
  unfold step sample?
  simp only [hspan]
  split <;> rfl

def recent (now : Time) (s : Sample) : Bool := elapsed s.time now ≤ window

-- What is dropped at some time does not count later.
theorem filter_recent_add (fix : Fix) (hle : fix.time ≤ now) :
    (t.add fix.time fix.position).samples.filter (recent now) =
      (t.samples ++ (sample? ⟨t.time, t.position⟩ fix).toList).filter (recent now) := by
  rw [add, step_eq]
  generalize t.samples ++ (sample? ⟨t.time, t.position⟩ fix).toList = samples
  induction samples with
  | nil => rfl
  | cons s rest ih =>
    rw [List.dropWhile_cons]
    split
    · next hold =>
      have hdropped : recent now s = false := by grind [recent, elapsed]
      rw [ih, List.filter_cons_of_neg (by simp [hdropped])]
    · rfl

-- Of the samples that count, none is dropped.
theorem filter_recent_foldl (h : ∀ fix ∈ fixes, fix.time ≤ now) :
    (fixes.foldl (fun t fix => t.add fix.time fix.position) t).samples.filter (recent now) =
      (t.samples ++ ((⟨t.time, t.position⟩ :: fixes).zip fixes).filterMap
        fun step => sample? step.1 step.2).filter (recent now) := by
  induction fixes generalizing t with
  | nil => simp
  | cons fix rest ih =>
    have hrest := ih (t := t.add fix.time fix.position)
      fun other hother => h other (List.mem_cons_of_mem fix hother)
    rw [List.foldl_cons, hrest, List.filter_append, filter_recent_add fix (h fix (by simp))]
    have hfix : Fix.mk (t.add fix.time fix.position).time (t.add fix.time fix.position).position =
        fix := rfl
    rw [hfix, ← List.filter_append, List.append_assoc, List.zip_cons_cons, List.filterMap_cons]
    cases sample? ⟨t.time, t.position⟩ fix <;> rfl

theorem velocity_eq_mean (t : Tracker) (now : Time) :
    t.velocity now = mean ((t.samples.filter (recent now)).map (·.velocity)) := by
  have hrecent : (t.samples.filter fun s => elapsed s.time now ≤ window) =
      t.samples.filter (recent now) := rfl
  simp only [velocity, mean, hrecent, List.isEmpty_map, List.foldl_map, List.length_map]

theorem map_velocity_samples (steps : List (Fix × Fix)) (now : Time) :
    ((steps.filterMap fun step => sample? step.1 step.2).filter (recent now)).map (·.velocity) =
      (steps.filter fun step =>
        step.1.time < step.2.time && elapsed step.2.time now ≤ window).map
          fun step => between step.1 step.2 := by
  induction steps with
  | nil => rfl
  | cons step rest ih =>
    rw [List.filterMap_cons, List.filter_cons]
    by_cases hlater : step.1.time < step.2.time
    · have hsample : sample? step.1 step.2 = some ⟨step.2.time, between step.1 step.2⟩ :=
        if_pos hlater
      rw [hsample, decide_eq_true hlater, Bool.true_and, List.filter_cons, recent]
      split
      · rw [List.map_cons, List.map_cons, ih]
      · exact ih
    · have hsample : sample? step.1 step.2 = none := if_neg hlater
      rw [hsample, decide_eq_false hlater, Bool.false_and]
      exact ih

-- A point that has been followed up to some time has the average velocity then.
theorem velocity_follow (start : Fix) (h : ∀ fix ∈ fixes, fix.time ≤ now) :
    (follow start fixes).velocity now = average start fixes now := by
  have hsamples : (follow start fixes).samples.filter (recent now) =
      (((start :: fixes).zip fixes).filterMap fun step => sample? step.1 step.2).filter
        (recent now) := filter_recent_foldl (t := Tracker.start start.time start.position) h
  rw [velocity_eq_mean, hsamples, map_velocity_samples]
  rfl

end Tracker

end TouchGestures.Velocity
