import TouchGestures.Gesture

namespace TouchGestures.Gesture

-- Gestures that make sense only together: an opener, what may follow it, and an ending.
inductive Family
  | tap
  | scroll
  | pinch
  deriving DecidableEq

namespace Family

def opener : Family → Kind
  | .tap => .tapDown
  | .scroll => .scrollBegin
  | .pinch => .pinchBegin

def ends : Family → Kind → Bool
  | .tap, k => k.endsTap
  | .scroll, k => k.endsScroll
  | .pinch, k => k = .pinchEnd

-- Whether the family is open after a gesture. Nothing opens twice, and only what is open
-- goes on or ends.
def next (f : Family) (isOpen : Bool) (k : Kind) : Option Bool :=
  if k = f.opener then if isOpen then none else some true
  else if f.ends k then if isOpen then some false else none
  else if k.antecedent = some f.opener && !isOpen then none
  else some isOpen

@[simp] theorem antecedent_opener (f : Family) : f.opener.antecedent = none := by
  cases f <;> rfl

theorem eq_opener_of_antecedent {k opener : Kind} (h : k.antecedent = some opener) :
    ∃ f : Family, opener = f.opener := by
  cases k <;> cases h
  all_goals first
    | exact ⟨.tap, rfl⟩
    | exact ⟨.scroll, rfl⟩
    | exact ⟨.pinch, rfl⟩

theorem antecedent_of_ends {f : Family} {k : Kind} (h : f.ends k = true) :
    k.antecedent = some f.opener := by
  cases f <;> cases k <;>
    simp_all [ends, opener, Kind.endsTap, Kind.endsScroll, Kind.antecedent]

-- A gesture opens the family, ends it, or leaves it as it is.
theorem next_cases {f : Family} {isOpen isOpen' : Bool} {k : Kind}
    (h : f.next isOpen k = some isOpen') :
    (k = f.opener ∧ isOpen = false ∧ isOpen' = true) ∨
      (k ≠ f.opener ∧ f.ends k = true ∧ isOpen = true ∧ isOpen' = false) ∨
      (k ≠ f.opener ∧ f.ends k = false ∧ isOpen' = isOpen ∧
        (k.antecedent = some f.opener → isOpen = true)) := by
  unfold next at h
  split at h
  · next hopener =>
    cases isOpen <;> simp_all
  · next hopener =>
    split at h
    · cases isOpen <;> simp_all
    · split at h <;> cases isOpen <;> simp_all

-- Whether the family is open after some gestures, if they are in order.
def run (f : Family) : Bool → List Gesture → Option Bool
  | isOpen, [] => some isOpen
  | isOpen, g :: rest => (f.next isOpen g.kind).bind fun isOpen => f.run isOpen rest

variable {f : Family} {isOpen : Bool}

@[simp] theorem run_nil : f.run isOpen [] = some isOpen := rfl

theorem run_cons (g : Gesture) (rest : List Gesture) :
    f.run isOpen (g :: rest) =
      (f.next isOpen g.kind).bind fun isOpen => f.run isOpen rest := rfl

@[simp] theorem run_singleton (g : Gesture) : f.run isOpen [g] = f.next isOpen g.kind := by
  simp [run_cons, run_nil]

theorem run_append (first second : List Gesture) :
    f.run isOpen (first ++ second) =
      (f.run isOpen first).bind fun isOpen => f.run isOpen second := by
  induction first generalizing isOpen with
  | nil => rfl
  | cons g rest ih =>
    cases h : f.next isOpen g.kind with
    | none => simp [run_cons, h]
    | some isOpen' => simpa [run_cons, h] using ih

-- Only the kinds of gestures matter.
theorem run_congr {first second : List Gesture} (h : first.map kind = second.map kind) :
    f.run isOpen first = f.run isOpen second := by
  induction first generalizing second isOpen with
  | nil =>
    have hnil : second = [] := by simpa using h.symm
    rw [hnil]
  | cons g rest ih =>
    match second with
    | [] => simp at h
    | g' :: rest' =>
      simp only [List.map_cons, List.cons.injEq] at h
      simp only [run_cons, h.1]
      cases f.next isOpen g'.kind with
      | none => rfl
      | some isOpen' => exact ih h.2

-- Without an ending, what is open stays open.
theorem run_of_no_ending {gestures : List Gesture} (hnone : ∀ g ∈ gestures, f.ends g.kind = false)
    (h : f.run true gestures = some isOpen) : isOpen = true := by
  induction gestures with
  | nil => exact (Option.some.inj h).symm
  | cons g rest ih =>
    obtain ⟨between, hnext, hrest⟩ := Option.bind_eq_some_iff.mp h
    obtain ⟨-, hclosed, -⟩ | ⟨-, hends, -, -⟩ | ⟨-, -, rfl, -⟩ := next_cases hnext
    · cases hclosed
    · rw [hnone g List.mem_cons_self] at hends
      cases hends
    · exact ih (fun g' hg' => hnone g' (List.mem_cons_of_mem g hg')) hrest

end Family

end TouchGestures.Gesture
