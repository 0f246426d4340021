import TouchGestures.Proofs.Gesture.Family

namespace TouchGestures.Gesture.Family

variable {f : Family} {isOpen isOpen' : Bool} {g : Gesture} {first second : List Gesture}

def marks (f : Family) (g : Gesture) : Bool := g.kind = f.opener || f.ends g.kind

-- The openers and endings of the family come in pairs: after each opener an ending of its
-- own, and no ending without an opener before it.
def Paired (f : Family) (gestures : List Gesture) : Prop :=
  ∃ pairs : List (Gesture × Gesture),
    (∀ q ∈ pairs, q.1.kind = f.opener ∧ f.ends q.2.kind = true) ∧
      gestures.filter f.marks = pairs.flatMap fun q => [q.1, q.2]

-- Whether an opener has no ending yet after some gestures, if up to there they come in
-- pairs.
def alternate (f : Family) : Bool → List Gesture → Option Bool
  | isOpen, [] => some isOpen
  | isOpen, g :: rest =>
    if g.kind = f.opener then if isOpen then none else f.alternate true rest
    else if f.ends g.kind then if isOpen then f.alternate false rest else none
    else f.alternate isOpen rest

@[simp] theorem alternate_nil : f.alternate isOpen [] = some isOpen := rfl

theorem alternate_cons_of_opener (hg : g.kind = f.opener) (rest : List Gesture) :
    f.alternate isOpen (g :: rest) = if isOpen then none else f.alternate true rest := by
  simp [alternate, hg]

theorem ends_opener (f : Family) : f.ends f.opener = false := by
  cases f <;> rfl

theorem ne_opener_of_ends {k : Kind} (h : f.ends k = true) : k ≠ f.opener := by
  rintro rfl
  rw [ends_opener] at h
  cases h

theorem alternate_cons_of_ends (hg : f.ends g.kind = true) (rest : List Gesture) :
    f.alternate isOpen (g :: rest) = if isOpen then f.alternate false rest else none := by
  simp [alternate, hg, ne_opener_of_ends hg]

theorem alternate_cons_of_not_marks (hg : f.marks g = false) (rest : List Gesture) :
    f.alternate isOpen (g :: rest) = f.alternate isOpen rest := by
  simp only [marks, Bool.or_eq_false_iff, decide_eq_false_iff_not] at hg
  simp [alternate, hg.1, hg.2]

theorem alternate_append :
    f.alternate isOpen (first ++ second) =
      (f.alternate isOpen first).bind fun isOpen => f.alternate isOpen second := by
  induction first generalizing isOpen with
  | nil => rfl
  | cons g rest ih =>
    simp only [List.cons_append, alternate]
    split
    · cases isOpen with
      | true => rfl
      | false => exact ih
    · split
      · cases isOpen with
        | true => exact ih
        | false => rfl
      · exact ih

theorem alternate_filter_marks (gestures : List Gesture) :
    f.alternate isOpen (gestures.filter f.marks) = f.alternate isOpen gestures := by
  induction gestures generalizing isOpen with
  | nil => rfl
  | cons g rest ih =>
    cases hg : f.marks g with
    | false => rw [List.filter_cons_of_neg (by simp [hg]), alternate_cons_of_not_marks hg, ih]
    | true =>
      rw [List.filter_cons_of_pos hg]
      simp only [alternate, ih]

theorem alternate_of_not_marks (h : ∀ g ∈ first, f.marks g = false) :
    f.alternate isOpen first = some isOpen := by
  have hnil : first.filter f.marks = [] := by simpa using h
  rw [← alternate_filter_marks, hnil, alternate_nil]

theorem alternate_flatMap_pairs {pairs : List (Gesture × Gesture)}
    (h : ∀ q ∈ pairs, q.1.kind = f.opener ∧ f.ends q.2.kind = true) :
    f.alternate false (pairs.flatMap fun q => [q.1, q.2]) = some false := by
  induction pairs with
  | nil => rfl
  | cons q rest ih =>
    obtain ⟨hopener, hends⟩ := h q (by simp)
    simp only [List.flatMap_cons, List.cons_append, List.nil_append]
    rw [alternate_cons_of_opener hopener, if_neg (by simp), alternate_cons_of_ends hends,
      if_pos rfl]
    exact ih fun q hq => h q (by simp [hq])

theorem pairs_of_alternate : ∀ {marked : List Gesture}, (∀ g ∈ marked, f.marks g = true) →
    f.alternate false marked = some false →
    ∃ pairs : List (Gesture × Gesture),
      (∀ q ∈ pairs, q.1.kind = f.opener ∧ f.ends q.2.kind = true) ∧
        marked = pairs.flatMap fun q => [q.1, q.2]
  | [], _, _ => ⟨[], by simp, rfl⟩
  | d :: rest, hmarked, halternate => by
    by_cases hd : d.kind = f.opener
    · rw [alternate_cons_of_opener hd, if_neg (by simp)] at halternate
      match rest with
      | [] => simp at halternate
      | e :: rest =>
        have he : e.kind ≠ f.opener := by
          intro he
          rw [alternate_cons_of_opener he] at halternate
          simp at halternate
        have hends : f.ends e.kind = true := by
          simpa [marks, he] using hmarked e (by simp)
        rw [alternate_cons_of_ends hends, if_pos rfl] at halternate
        have hrest : ∀ g ∈ rest, f.marks g = true := fun g hg => hmarked g (by simp [hg])
        obtain ⟨pairs, hpairs, rfl⟩ := pairs_of_alternate hrest halternate
        refine ⟨(d, e) :: pairs, ?_, rfl⟩
        intro q hq
        rcases List.mem_cons.mp hq with rfl | hq
        · exact ⟨hd, hends⟩
        · exact hpairs q hq
    · have hends : f.ends d.kind = true := by
        simpa [marks, hd] using hmarked d (by simp)
      rw [alternate_cons_of_ends hends] at halternate
      simp at halternate

theorem paired_iff_alternate (gestures : List Gesture) :
    f.Paired gestures ↔ f.alternate false gestures = some false := by
  rw [← alternate_filter_marks]
  constructor
  · rintro ⟨pairs, hpairs, hfilter⟩
    rw [hfilter]
    exact alternate_flatMap_pairs hpairs
  · intro h
    exact pairs_of_alternate (fun g hg => (List.mem_filter.mp hg).2) h

-- Only the kinds of gestures matter.
theorem alternate_congr (h : first.map kind = second.map kind) :
    f.alternate isOpen first = f.alternate isOpen second := by
  induction first generalizing second isOpen with
  | nil =>
    have hnil : second = [] := by simpa using h.symm
    rw [hnil]
  | cons g rest ih =>
    match second with
    | [] => simp at h
    | g' :: rest' =>
      simp only [List.map_cons, List.cons.injEq] at h
      have hrest : ∀ isOpen, f.alternate isOpen rest = f.alternate isOpen rest' := fun _ => ih h.2
      simp only [alternate, h.1, hrest]

-- Without an opener nothing that is closed can end.
theorem alternate_false_of_forall_ne_opener (h : ∀ g ∈ first, g.kind ≠ f.opener) :
    f.alternate false first = some false ∨ f.alternate false first = none := by
  induction first with
  | nil => exact .inl rfl
  | cons g rest ih =>
    have hg := h g (by simp)
    cases hends : f.ends g.kind with
    | true =>
      right
      rw [alternate_cons_of_ends hends, if_neg (by simp)]
    | false =>
      rw [alternate_cons_of_not_marks (by simp [marks, hg, hends])]
      exact ih fun g hg => h g (by simp [hg])

end TouchGestures.Gesture.Family
