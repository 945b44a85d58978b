import RecordFilter.Schema.Resolver

/-!
# Running actions on a resolver

An action answers with a value or an error and leaves a resolver behind. A sequence of actions
succeeds exactly when each of them does, on the resolver left by the one before.
-/

namespace RecordFilter

namespace Resolving

variable {κ α β : Type}

def outcome (x : Resolving κ α) (r : Resolver κ) : Except FilterError α × Resolver κ :=
  ((ExceptT.run x).run r).run

theorem outcome_pure (a : α) (r : Resolver κ) :
    outcome (pure a : Resolving κ α) r = (.ok a, r) := rfl

theorem outcome_bind (x : Resolving κ α) (f : α → Resolving κ β) (r : Resolver κ) :
    outcome (x >>= f) r = match outcome x r with
      | (.ok a, r') => outcome (f a) r'
      | (.error e, r') => (.error e, r') := by
  change (StateT.run (ExceptT.bindCont f (outcome x r).1) (outcome x r).2).run = _
  rcases outcome x r with ⟨_ | a, r'⟩ <;> rfl

theorem outcome_liftExcept (x : Except FilterError α) (r : Resolver κ) :
    outcome (liftM x : Resolving κ α) r = (x, r) := by
  cases x <;> rfl

theorem outcome_bind_eq_ok {x : Resolving κ α} {f : α → Resolving κ β} {r r' : Resolver κ} {b : β} :
    outcome (x >>= f) r = (.ok b, r') ↔
      ∃ a s, outcome x r = (.ok a, s) ∧ outcome (f a) s = (.ok b, r') := by
  rw [outcome_bind]
  constructor
  · intro h
    split at h
    · rename_i a s hx
      exact ⟨a, s, hx, h⟩
    · cases h
  · rintro ⟨a, s, hx, h⟩
    rw [hx]
    exact h

theorem outcome_pure_eq_ok {a b : α} {r r' : Resolver κ} :
    outcome (pure a : Resolving κ α) r = (.ok b, r') ↔ a = b ∧ r = r' := by
  rw [outcome_pure, Prod.mk.injEq, Except.ok.injEq]

/-- Whether the action keeps a property of the resolver, also when it fails. -/
def Preserves (P : Resolver κ → Prop) (x : Resolving κ α) : Prop := ∀ r, P r → P (x.outcome r).2

section
variable {P : Resolver κ → Prop}

theorem Preserves.of_outcome_eq {x : Resolving κ α} {r r' : Resolver κ}
    {result : Except FilterError α} (hx : Preserves P x) (hr : P r)
    (h : x.outcome r = (result, r')) : P r' := by
  have hKept := hx r hr
  rwa [h] at hKept

theorem preserves_pure (a : α) : Preserves P (pure a : Resolving κ α) := fun _ h => h

theorem preserves_liftExcept (x : Except FilterError α) :
    Preserves P (liftM x : Resolving κ α) := by
  intro r h
  rw [outcome_liftExcept]
  exact h

theorem Preserves.bind {x : Resolving κ α} {f : α → Resolving κ β} (hx : Preserves P x)
    (hf : ∀ a, Preserves P (f a)) : Preserves P (x >>= f) := by
  intro r h
  have hx := hx r h
  rw [outcome_bind]
  split
  · rename_i a s hOutcome
    rw [hOutcome] at hx
    exact hf a s hx
  · rename_i e s hOutcome
    rw [hOutcome] at hx
    exact hx

end

end Resolving

end RecordFilter
