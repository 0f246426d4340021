import TouchGestures.Violation

namespace TouchGestures

variable {α β : Type} {x : Except Violation α}

@[simp] theorem ok_bind (a : α) (f : α → Except Violation β) : (Except.ok a >>= f) = f a := rfl

@[simp] theorem error_bind (violation : Violation) (f : α → Except Violation β) :
    (Except.error violation >>= f) = .error violation := rfl

@[simp] theorem ok_map (a : α) (f : α → β) :
    (Except.ok a : Except Violation α).map f = .ok (f a) := rfl

@[simp] theorem error_map (violation : Violation) (f : α → β) :
    (Except.error violation : Except Violation α).map f = .error violation := rfl

-- A computation succeeds just if all its parts do.
theorem bind_eq_ok {f : α → Except Violation β} {b : β} :
    (x >>= f) = .ok b ↔ ∃ a, x = .ok a ∧ f a = .ok b := by
  cases x <;> simp [bind, Except.bind]

theorem map_eq_ok {f : α → β} {b : β} : x.map f = .ok b ↔ ∃ a, x = .ok a ∧ f a = b := by
  cases x <;> simp [Except.map]

theorem map_map {γ : Type} (x : Except Violation α) (f : α → β) (g : β → γ) :
    (x.map f).map g = x.map fun a => g (f a) := by
  cases x <;> rfl

-- What follows on two computations that come to the same comes to the same.
theorem bind_map_of {α' γ δ : Type} {x' : Except Violation α'} {f : α → δ} {f' : α' → δ}
    {k : α → Except Violation β} {k' : α' → Except Violation β} {g : β → γ}
    (h : x.map f = x'.map f') (hk : ∀ a a', f a = f' a' → (k a).map g = (k' a').map g) :
    (x >>= k).map g = (x' >>= k').map g := by
  cases x with
  | error violation =>
    cases x' with
    | error violation' => exact congrArg Except.error (Except.error.inj h)
    | ok a' => cases h
  | ok a =>
    cases x' with
    | error violation' => cases h
    | ok a' => exact hk a a' (Except.ok.inj h)

theorem map_eq_map_of {α' γ : Type} {x' : Except Violation α'} {f : α → β} {f' : α' → β}
    {g : α → γ} {g' : α' → γ} (h : x.map f = x'.map f') (hg : ∀ a a', f a = f' a' → g a = g' a') :
    x.map g = x'.map g' := by
  have hbind : (x >>= fun a => .ok (g a)).map id = (x' >>= fun a => .ok (g' a)).map id :=
    bind_map_of h fun a a' heq => congrArg Except.ok (hg a a' heq)
  cases x <;> cases x' <;> exact hbind

-- Lets something happen to a part of a state that is changed in place. Whatever becomes of
-- the part is in the whole then, also if it ends in a violation.
def within {σ τ : Type} (part : σ → τ) (put : σ → τ → σ) (f : EStateM Violation τ α) :
    EStateM Violation σ α := fun s =>
  match f.run (part s) with
  | .ok a p => .ok a (put s p)
  | .error violation p => .error violation (put s p)

theorem run_within {σ τ : Type} (part : σ → τ) (put : σ → τ → σ) (f : EStateM Violation τ α)
    (s : σ) :
    (within part put f).run s =
      match f.run (part s) with
      | .ok a p => .ok a (put s p)
      | .error violation p => .error violation (put s p) := rfl

theorem run_ofExcept {σ : Type} (x : Except Violation α) (s : σ) :
    (MonadExcept.ofExcept x : EStateM Violation σ α).run s =
      match x with
      | .ok a => .ok a s
      | .error violation => .error violation s := by
  cases x <;> rfl

theorem run_throw {σ : Type} (violation : Violation) (s : σ) :
    (throw violation : EStateM Violation σ α).run s = .error violation s := rfl

end TouchGestures
