import Mathlib.Data.List.Nodup
import TouchGestures.Proofs.Gesture.Family

namespace TouchGestures.Gesture

-- The kinds that tell how far a stream has come.
def Kind.isStage : Kind → Bool
  | .tapDown | .showPress | .longPress | .scrollBegin | .longTap => true
  | _ => false

def stages (gestures : List Gesture) : List Kind := (gestures.map kind).filter Kind.isStage

@[simp] theorem stages_nil : stages [] = [] := rfl

@[simp] theorem stages_append (first second : List Gesture) :
    stages (first ++ second) = stages first ++ stages second := by
  simp [stages]

@[simp] theorem stages_singleton (g : Gesture) :
    stages [g] = if g.kind.isStage then [g.kind] else [] := by
  simp only [stages, List.map_cons, List.map_nil]
  cases h : g.kind.isStage <;> simp [h]

-- What becomes of a stream from its first press until it was lifted or cancelled.
structure Grammar (gestures : List Gesture) (lifted : Bool) : Prop where
  -- It begins with a tap, which has one ending, and nothing of the tap comes later.
  tap : ∃ before ending after, gestures.map kind = .tapDown :: before ++ ending :: after ∧
    ending.endsTap = true ∧ (∀ k ∈ before, k ≠ .tapDown ∧ k.endsTap = false) ∧
    ∀ k ∈ after, k ≠ .tapDown ∧ k.antecedent ≠ some .tapDown
  -- The press is shown at most once, and is found to be long at most once, after that.
  shown : (gestures.map kind).count .showPress ≤ 1
  long : (gestures.map kind).count .longPress ≤ 1
  order : ¬[.longPress, .showPress].Sublist (gestures.map kind)
  longTap : .longTap ∈ gestures.map kind ↔
    .longPress ∈ gestures.map kind ∧ lifted = true ∧ .scrollBegin ∉ gestures.map kind
  -- At most one scroll begins, and none after a long press.
  scroll : (gestures.map kind).count .scrollBegin ≤ 1
  still : ¬[.longPress, .scrollBegin].Sublist (gestures.map kind)
  -- Whatever opens is ended before it opens anew, with all that belongs to it in between.
  closed : ∀ f : Family, f.run false gestures = some false

-- The stages of a stream that has come to its end.
def outline (shown long scrolled lifted : Bool) : List Kind :=
  .tapDown :: ((if shown then [.showPress] else []) ++ (if long then [.longPress] else []) ++
    (if scrolled then [.scrollBegin] else []) ++ (if long && lifted then [.longTap] else []))

variable {f : Family} {isOpen shown long scrolled lifted : Bool} {gestures : List Gesture}

theorem count_kind_of_isStage {k : Kind} (hk : k.isStage = true) :
    (gestures.map kind).count k = (stages gestures).count k :=
  (List.count_filter hk).symm

theorem mem_kind_of_isStage {k : Kind} (hk : k.isStage = true) :
    k ∈ gestures.map kind ↔ k ∈ stages gestures := by
  rw [stages, List.mem_filter, and_iff_left hk]

-- Stages that follow one another among all gestures do so among the stages.
theorem sublist_stages {first second : Kind} (hfirst : first.isStage = true)
    (hsecond : second.isStage = true) (h : [first, second].Sublist (gestures.map kind)) :
    [first, second].Sublist (stages gestures) := by
  have hfiltered := h.filter Kind.isStage
  rwa [List.filter_cons_of_pos hfirst, List.filter_cons_of_pos hsecond, List.filter_nil]
    at hfiltered

-- What never opens has no other gestures either.
theorem Family.antecedent_ne_of_run (h : f.run false gestures = some isOpen)
    (hnone : f.opener ∉ gestures.map kind) :
    ∀ k ∈ gestures.map kind, k.antecedent ≠ some f.opener := by
  induction gestures with
  | nil => simp
  | cons g rest ih =>
    rw [List.map_cons, List.mem_cons, not_or] at hnone
    obtain ⟨between, hnext, hrest⟩ := Option.bind_eq_some_iff.mp h
    obtain ⟨hopener, -, -⟩ | ⟨-, -, hopen, -⟩ | ⟨-, -, rfl, hinside⟩ := next_cases hnext
    · exact absurd hopener.symm hnone.1
    · cases hopen
    · rw [List.map_cons, List.forall_mem_cons]
      exact ⟨fun hg => Bool.noConfusion (hinside hg), ih hrest hnone.2⟩

-- What is open and closed in the end, without opening anew, has one ending, and nothing
-- of the family comes after that.
theorem Family.exists_ending (h : f.run true gestures = some false)
    (hnone : f.opener ∉ gestures.map kind) :
    ∃ before ending after, gestures.map kind = before ++ ending :: after ∧
      f.ends ending = true ∧ (∀ k ∈ before, f.ends k = false) ∧
      ∀ k ∈ after, k.antecedent ≠ some f.opener := by
  induction gestures with
  | nil => cases h
  | cons g rest ih =>
    rw [List.map_cons, List.mem_cons, not_or] at hnone
    obtain ⟨between, hnext, hrest⟩ := Option.bind_eq_some_iff.mp h
    obtain ⟨hopener, -, -⟩ | ⟨-, hends, -, rfl⟩ | ⟨-, hends, rfl, -⟩ := next_cases hnext
    · exact absurd hopener.symm hnone.1
    · exact ⟨[], g.kind, rest.map kind, rfl, hends, by simp, antecedent_ne_of_run hrest hnone.2⟩
    · obtain ⟨before, ending, after, hkinds, hending, hbefore, hafter⟩ := ih hrest hnone.2
      refine ⟨g.kind :: before, ending, after, by simp [hkinds], hending, ?_, hafter⟩
      rw [List.forall_mem_cons]
      exact ⟨hends, hbefore⟩

-- No stage is reached twice.
theorem nodup_outline (shown long scrolled lifted : Bool) :
    (outline shown long scrolled lifted).Nodup := by
  cases shown <;> cases long <;> cases scrolled <;> cases lifted <;> decide

-- A long press comes after the press was shown, and rules out a scroll.
theorem order_outline (shown lifted : Bool) (hstill : long = true → scrolled = false) :
    ¬[.longPress, .showPress].Sublist (outline shown long scrolled lifted) ∧
      ¬[.longPress, .scrollBegin].Sublist (outline shown long scrolled lifted) := by
  revert hstill
  cases shown <;> cases long <;> cases scrolled <;> cases lifted <;> decide

theorem longTap_mem_outline_iff (hstill : long = true → scrolled = false) :
    .longTap ∈ outline shown long scrolled lifted ↔
      .longPress ∈ outline shown long scrolled lifted ∧ lifted = true ∧
        .scrollBegin ∉ outline shown long scrolled lifted := by
  revert hstill
  cases shown <;> cases long <;> cases scrolled <;> cases lifted <;> decide

-- What begins with the only press of its tap and is closed in the end has one ending of it.
theorem exists_ending_of_first {g : Gesture} {rest : List Gesture} (hg : g.kind = .tapDown)
    (hnone : .tapDown ∉ rest.map kind) (hclosed : Family.tap.run false (g :: rest) = some false) :
    ∃ before ending after, (g :: rest).map kind = .tapDown :: before ++ ending :: after ∧
      ending.endsTap = true ∧ (∀ k ∈ before, k ≠ .tapDown ∧ k.endsTap = false) ∧
      ∀ k ∈ after, k ≠ .tapDown ∧ k.antecedent ≠ some .tapDown := by
  have hrun : Family.tap.run true rest = some false := by
    simpa [Family.run_cons, hg, Family.next, Family.opener] using hclosed
  obtain ⟨before, ending, after, hkinds, hending, hbefore, hafter⟩ :=
    Family.exists_ending hrun hnone
  rw [hkinds, List.mem_append, List.mem_cons, not_or, not_or] at hnone
  refine ⟨before, ending, after, by simp [hg, hkinds], hending, fun k hk => ?_, fun k hk => ?_⟩
  · exact ⟨fun htap => hnone.1 (htap ▸ hk), hbefore k hk⟩
  · exact ⟨fun htap => hnone.2.2 (htap ▸ hk), hafter k hk⟩

-- A stream whose stages come in this order, and whose families are all closed in the end,
-- is as it should be.
theorem Grammar.of_outline {g : Gesture} {rest : List Gesture} (hg : g.kind = .tapDown)
    (hclosed : ∀ f : Family, f.run false (g :: rest) = some false)
    (hstages : stages (g :: rest) = outline shown long scrolled lifted)
    (hstill : long = true → scrolled = false) : Grammar (g :: rest) lifted := by
  have hcount : ∀ k : Kind, k.isStage = true → ((g :: rest).map kind).count k ≤ 1 := by
    intro k hk
    rw [count_kind_of_isStage hk, hstages]
    exact List.nodup_iff_count_le_one.mp (nodup_outline shown long scrolled lifted) k
  have horder := order_outline shown lifted hstill
  refine ⟨exists_ending_of_first hg ?_ (hclosed .tap), hcount _ rfl, hcount _ rfl,
    fun h => ?_, ?_, hcount _ rfl, fun h => ?_, hclosed⟩
  · have hone := hcount .tapDown rfl
    rw [List.map_cons, hg, List.count_cons_self] at hone
    exact List.count_eq_zero.mp (by omega)
  · exact horder.1 (hstages ▸ sublist_stages rfl rfl h)
  · rw [mem_kind_of_isStage rfl, mem_kind_of_isStage rfl, mem_kind_of_isStage rfl, hstages]
    exact longTap_mem_outline_iff hstill
  · exact horder.2 (hstages ▸ sublist_stages rfl rfl h)

end TouchGestures.Gesture
