import Mathlib.Data.List.Basic
import Mathlib.Data.List.Induction

namespace TouchGestures

variable {α : Type} {P : List α → α → Prop} {log first second : List α} {last : α}

theorem forall_split_singleton (h : P [] last) :
    ∀ before x after, [last] = before ++ x :: after → P before x := by
  intro before x after heq
  obtain ⟨rfl, hsingle⟩ | ⟨-, hnil⟩ := List.append_eq_singleton_iff.mp heq.symm
  · obtain ⟨rfl, -⟩ := List.cons.inj hsingle
    exact h
  · cases hnil

-- What holds of every entry of two logs, given those before it in both, holds of every entry
-- of the one log that they make up.
theorem forall_split_append (hfirst : ∀ before x after, first = before ++ x :: after → P before x)
    (hsecond : ∀ before x after, second = before ++ x :: after → P (first ++ before) x) :
    ∀ before x after, first ++ second = before ++ x :: after → P before x := by
  intro before x after heq
  obtain ⟨between, rfl, hsplit⟩ | ⟨between, rfl, hsplit⟩ := List.append_eq_append_iff.mp heq
  · exact hsecond between x after hsplit
  · cases between with
    | nil => simpa using hsecond [] x after hsplit.symm
    | cons y between =>
      obtain ⟨rfl, -⟩ := List.cons.inj hsplit
      exact hfirst before x between rfl

-- What holds of every entry of a log, given those before it, holds of one more entry if it
-- does of that one.
theorem forall_split_concat (h : ∀ before x after, log = before ++ x :: after → P before x)
    (hlast : P log last) :
    ∀ before x after, log ++ [last] = before ++ x :: after → P before x :=
  forall_split_append h
    (forall_split_singleton (P := fun before => P (log ++ before)) (by simpa using hlast))

-- Some entry of a log is of one kind, and all entries since are of another.
def Since (P Q : α → Prop) (log : List α) : Prop :=
  ∃ before x after, log = before ++ x :: after ∧ P x ∧ ∀ y ∈ after, Q y

section Since

variable {P Q : α → Prop}

theorem not_since_nil : ¬Since P Q [] := by
  rintro ⟨before, x, after, hnil, -⟩
  simp at hnil

theorem since_concat : Since P Q (log ++ [last]) ↔ P last ∨ Q last ∧ Since P Q log := by
  constructor
  · rintro ⟨before, x, after, hsplit, hx, hafter⟩
    obtain rfl | ⟨after, y, rfl⟩ := after.eq_nil_or_concat
    · obtain ⟨-, hlast⟩ := List.append_inj' hsplit rfl
      obtain rfl := List.singleton_inj.mp hlast
      exact .inl hx
    · rw [List.concat_eq_append] at hsplit hafter
      rw [← List.cons_append, ← List.append_assoc] at hsplit
      obtain ⟨rfl, hlast⟩ := List.append_inj' hsplit rfl
      obtain rfl := List.singleton_inj.mp hlast
      exact .inr ⟨hafter last (by simp), before, x, after, rfl, hx,
        fun y hy => hafter y (by simp [hy])⟩
  · rintro (hlast | ⟨hlast, before, x, after, rfl, hx, hafter⟩)
    · exact ⟨log, last, [], rfl, hlast, by simp⟩
    · refine ⟨before, x, after ++ [last], by simp, hx, fun y hy => ?_⟩
      obtain hy | hy := List.mem_append.mp hy
      · exact hafter y hy
      · rwa [List.mem_singleton.mp hy]

-- The last value of a log is that of some entry, and no entry since has one.
theorem getLast?_filterMap_eq_some_iff {β : Type} {f : α → Option β} {value : β} :
    (log.filterMap f).getLast? = some value ↔ Since (f · = some value) (f · = none) log := by
  induction log using List.reverseRecOn with
  | nil => exact iff_of_false (by simp) not_since_nil
  | append_singleton log last ih =>
    rw [since_concat, ← ih, List.filterMap_append, List.getLast?_append]
    cases hlast : f last <;> simp [hlast]

end Since

-- An entry unlike all of the end of a log is found before that end.
theorem exists_split_of_append_eq {P : α → Prop} {before after first last : List α} {x : α}
    (h : before ++ x :: after = first ++ last) (hx : P x) (hlast : ∀ y ∈ last, ¬P y) :
    ∃ between, first = before ++ x :: between := by
  obtain ⟨between, hfirst, hrest⟩ | ⟨between, -, hrest⟩ := List.append_eq_append_iff.mp h
  · cases between with
    | nil =>
      obtain rfl : last = x :: after := hrest.symm
      exact absurd hx (hlast x List.mem_cons_self)
    | cons y between =>
      obtain ⟨rfl, -⟩ := List.cons.inj hrest
      exact ⟨between, hfirst⟩
  · exact absurd hx (hlast x (by simp [hrest]))

-- Two values in their order come from two entries of a log in theirs, if no entry has more
-- than one.
theorem exists_split_of_sublist_flatMap {β : Type} {f : α → List β} {a b : β}
    (h : [a, b].Sublist (log.flatMap f)) (hone : ∀ x ∈ log, (f x).length ≤ 1) :
    ∃ before x between y after, log = before ++ x :: between ++ y :: after ∧ a ∈ f x ∧ b ∈ f y := by
  induction log with
  | nil => simp at h
  | cons x rest ih =>
    have hrest := fun y hy => hone y (List.mem_cons_of_mem x hy)
    rw [List.flatMap_cons] at h
    match hx : f x with
    | [] =>
      rw [hx, List.nil_append] at h
      obtain ⟨before, x', between, y, after, rfl, ha, hb⟩ := ih h hrest
      exact ⟨x :: before, x', between, y, after, by simp, ha, hb⟩
    | c :: more =>
      have hmore : more = [] := by
        have hlength := hone x (by simp)
        rw [hx, List.length_cons] at hlength
        exact List.eq_nil_of_length_eq_zero (by omega)
      rw [hx, hmore, List.singleton_append] at h
      obtain h | ⟨r, hr, h⟩ := List.sublist_cons_iff.mp h
      · obtain ⟨before, x', between, y, after, rfl, ha, hb⟩ := ih h hrest
        exact ⟨x :: before, x', between, y, after, by simp, ha, hb⟩
      · obtain ⟨rfl, rfl⟩ := List.cons.inj hr
        obtain ⟨y, hy, hb⟩ := List.mem_flatMap.mp (List.singleton_sublist.mp h)
        obtain ⟨between, after, rfl⟩ := List.append_of_mem hy
        exact ⟨[], x, between, y, after, by simp, by simp [hx], hb⟩

end TouchGestures
