import RecordFilter.Proofs.Schema.Known

/-!
# Two resolvers side by side

Actions agree on two resolvers if they answer alike, errors included, and leave resolvers behind
that are related as those before. A resolver that remembers only what it would find anyway answers
every path as the walk over the schemas does, so a second one of the same settings answers alike.
-/

namespace RecordFilter

namespace Resolving

variable {κ α β : Type} {R : Resolver κ → Resolver κ → Prop} {Q : FilterError → Prop}

/-- On related resolvers the actions answer alike, fail only with errors in `Q`, and leave related
resolvers behind. -/
def Agree (R : Resolver κ → Resolver κ → Prop) (Q : FilterError → Prop) (x y : Resolving κ α) :
    Prop :=
  ∀ r r', R r r' → (x.outcome r).1 = (y.outcome r').1 ∧ (∀ e, (x.outcome r).1 = .error e → Q e) ∧
    R (x.outcome r).2 (y.outcome r').2

/-- On the first of two related resolvers the action answers with nothing, which leaves it related
to the second. -/
def Drops (R : Resolver κ → Resolver κ → Prop) (x : Resolving κ (Option α)) : Prop :=
  ∀ r r', R r r' → ∃ s, x.outcome r = (.ok none, s) ∧ R s r'

theorem agree_pure (a : α) : Agree R Q (pure a : Resolving κ α) (pure a) := by
  intro r r' h
  exact ⟨rfl, nofun, h⟩

theorem agree_liftExcept {x : Except FilterError α} (hx : ∀ e, x = .error e → Q e) :
    Agree R Q (liftM x : Resolving κ α) (liftM x) := by
  intro r r' h
  rw [outcome_liftExcept, outcome_liftExcept]
  exact ⟨rfl, hx, h⟩

theorem Agree.bind {x y : Resolving κ α} {f g : α → Resolving κ β} (hx : Agree R Q x y)
    (hf : ∀ a, Agree R Q (f a) (g a)) : Agree R Q (x >>= f) (y >>= g) := by
  intro r r' h
  have hBoth := hx r r' h
  rw [outcome_bind, outcome_bind]
  generalize x.outcome r = left at hBoth ⊢
  generalize y.outcome r' = right at hBoth ⊢
  obtain ⟨hAnswer, hError, hNext⟩ := hBoth
  obtain ⟨answer, s⟩ := left
  obtain ⟨answer', s'⟩ := right
  obtain rfl : answer = answer' := hAnswer
  cases answer with
  | error e => exact ⟨rfl, fun e' he => hError e' (congrArg _ (Except.error.inj he)), hNext⟩
  | ok a => exact hf a s s' hNext

theorem Agree.eq_of_outcome_eq {x y : Resolving κ α} (h : Agree R Q x y) {r r' s s' : Resolver κ}
    (hr : R r r') {a b : α} (hx : x.outcome r = (.ok a, s)) (hy : y.outcome r' = (.ok b, s')) :
    a = b ∧ R s s' := by
  obtain ⟨hAnswer, -, hNext⟩ := h r r' hr
  rw [hx, hy] at hAnswer hNext
  exact ⟨Except.ok.inj hAnswer, hNext⟩

/-- What is dropped on one side only does not disturb the rest. -/
theorem Drops.agree {x : Resolving κ (Option α)} {f : Option α → Resolving κ β} {y : Resolving κ β}
    (hx : Drops R x) (hf : Agree R Q (f none) y) : Agree R Q (x >>= f) y := by
  intro r r' h
  obtain ⟨s, hDropped, hNext⟩ := hx r r' h
  rw [outcome_bind, hDropped]
  exact hf s r' hNext

theorem Preserves.agree {P : Resolver κ → Prop} {x : Resolving κ α} (h : Preserves P x)
    (hError : ∀ r, P r → ∀ e, (x.outcome r).1 = .error e → Q e) :
    Agree (fun r r' => r = r' ∧ P r) Q x x := by
  rintro r r' ⟨rfl, hr⟩
  exact ⟨rfl, hError r hr, rfl, h r hr⟩

theorem Agree.preserves {P : Resolver κ → Prop} {x : Resolving κ α}
    (h : Agree (fun r r' => r = r' ∧ P r) Q x x) : Preserves P x := by
  intro r hr
  exact (h r r ⟨rfl, hr⟩).2.2.2

end Resolving

open Resolving

section
variable {κ : Type} (catalog : Catalog κ) (schema : RecordSchema κ)

def RecordSchema.fieldWithin? (depth : Nat) (path : String) : Option (ResolvedField κ) :=
  if depth < pathDepth path then none else schema.fieldAt? catalog path

def RecordSchema.joinsWithin? (depth : Nat) (path : String) : Option (List (JoinSpec κ)) :=
  if depth < pathDepth path then none else schema.joinsOf? catalog path

def RecordSchema.pathFailure (depth : Nat) (path : String) : FilterError :=
  if depth < pathDepth path then .fieldTooDeep path depth else .unknownField schema.name path

/-- What is found, or what the policy makes of a failure to find it. -/
def UnknownFieldPolicy.answer {α : Type} (p : UnknownFieldPolicy) (found : Option α)
    (e : FilterError) : Except FilterError (Option α) :=
  match found with
  | some a => .ok (some a)
  | none => p.drop e

theorem UnknownFieldPolicy.answer_eq_ok_some_iff {α : Type} {p : UnknownFieldPolicy}
    {found : Option α} {e : FilterError} {a : α} :
    p.answer found e = .ok (some a) ↔ found = some a := by
  cases found with
  | some b => simp [answer]
  | none => cases p <;> simp [answer, drop]

namespace Resolver

variable {catalog schema}

theorem lookup_eq (r : Resolver κ) (path : String) :
    r.lookup catalog schema path = r.policy.answer (schema.fieldWithin? catalog r.maxDepth path)
      (schema.pathFailure r.maxDepth path) := by
  unfold lookup RecordSchema.fieldWithin? RecordSchema.pathFailure
  split
  · rfl
  · cases schema.fieldAt? catalog path <;> rfl

theorem lookupRelation_eq (r : Resolver κ) (path : String) :
    r.lookupRelation catalog schema path =
      r.policy.answer (schema.joinsWithin? catalog r.maxDepth path)
        (schema.pathFailure r.maxDepth path) := by
  unfold lookupRelation RecordSchema.joinsWithin? RecordSchema.pathFailure
  split
  · rfl
  · cases schema.joinsOf? catalog path <;> rfl

theorem outcome_resolve_fst (r : Resolver κ) (path : String) :
    ((resolve catalog schema path).outcome r).1 =
      match r.cache.lookup (key schema path) with
      | some field => .ok (some field)
      | none => r.lookup catalog schema path := by
  rw [outcome_resolve]
  cases r.cache.lookup (key schema path) with
  | some field => rfl
  | none => rcases r.lookup catalog schema path with e | _ | field <;> rfl

theorem policy_outcome_resolve (r : Resolver κ) (path : String) :
    ((resolve catalog schema path).outcome r).2.policy = r.policy := by
  rcases outcome_resolve_snd catalog schema r path with hSame | ⟨field, -, -, hRemembered⟩
  · rw [hSame]
  · rw [hRemembered]
    rfl

variable (catalog schema) in
/-- What is remembered for the schema is what its paths lead to within the depth. -/
def Exact (r : Resolver κ) : Prop :=
  ∀ path field, r.cache.lookup (key schema path) = some field →
    schema.fieldWithin? catalog r.maxDepth path = some field

theorem exact_of_cache_eq_nil {r : Resolver κ} (h : r.cache = []) : r.Exact catalog schema := by
  intro path field hLookup
  rw [h] at hLookup
  cases hLookup

theorem Exact.outcome_resolve_fst {r : Resolver κ} (h : r.Exact catalog schema) (path : String) :
    ((resolve catalog schema path).outcome r).1 = r.lookup catalog schema path := by
  rw [Resolver.outcome_resolve_fst]
  split
  · rename_i field hCached
    rw [lookup_eq, UnknownFieldPolicy.answer_eq_ok_some_iff.mpr (h path field hCached)]
  · rfl

theorem Exact.outcome_resolve_snd {r : Resolver κ} (h : r.Exact catalog schema) (path : String) :
    ((resolve catalog schema path).outcome r).2.Exact catalog schema := by
  rcases Resolver.outcome_resolve_snd catalog schema r path with
    hSame | ⟨found, -, hFound, hRemembered⟩
  · rwa [hSame]
  · rw [lookup_eq, UnknownFieldPolicy.answer_eq_ok_some_iff] at hFound
    rw [hRemembered]
    intro path' field hLookup
    rw [remember, List.lookup_cons] at hLookup
    split at hLookup
    · rename_i hKey
      cases hLookup
      have hPath : path' = path := congrArg ResolverKey.path (beq_iff_eq.mp hKey)
      rw [hPath]
      exact hFound
    · exact h path' field hLookup

variable (catalog schema) in
/-- The resolvers have the same settings and answer every path of the schema alike. -/
structure Alike (r r' : Resolver κ) : Prop where
  maxDepth_eq : r.maxDepth = r'.maxDepth
  policy_eq : r.policy = r'.policy
  answer_eq : ∀ path, ((resolve catalog schema path).outcome r).1 =
    ((resolve catalog schema path).outcome r').1

theorem Alike.refl (r : Resolver κ) : r.Alike catalog schema r := ⟨rfl, rfl, fun _ => rfl⟩

theorem Alike.symm {r r' : Resolver κ} (h : r.Alike catalog schema r') :
    r'.Alike catalog schema r :=
  ⟨h.maxDepth_eq.symm, h.policy_eq.symm, fun path => (h.answer_eq path).symm⟩

theorem Alike.trans {r r' r'' : Resolver κ} (h : r.Alike catalog schema r')
    (h' : r'.Alike catalog schema r'') : r.Alike catalog schema r'' :=
  ⟨h.maxDepth_eq.trans h'.maxDepth_eq, h.policy_eq.trans h'.policy_eq,
    fun path => (h.answer_eq path).trans (h'.answer_eq path)⟩

theorem Exact.alike {r r' : Resolver κ} (h : r.Exact catalog schema) (h' : r'.Exact catalog schema)
    (hDepth : r.maxDepth = r'.maxDepth) (hPolicy : r.policy = r'.policy) :
    r.Alike catalog schema r' := by
  refine ⟨hDepth, hPolicy, fun path => ?_⟩
  rw [h.outcome_resolve_fst, h'.outcome_resolve_fst, lookup_eq, lookup_eq, hDepth, hPolicy]

/-- A resolver answers alike before and after it has resolved a path, whatever it remembers. -/
theorem alike_outcome_resolve (r : Resolver κ) (path : String) :
    r.Alike catalog schema ((resolve catalog schema path).outcome r).2 := by
  rcases outcome_resolve_snd catalog schema r path with
    hSame | ⟨field, hAbsent, hLookup, hRemembered⟩
  · rw [hSame]
    exact .refl r
  · rw [hRemembered]
    refine ⟨rfl, rfl, fun path' => ?_⟩
    rw [outcome_resolve_fst, outcome_resolve_fst, remember, List.lookup_cons]
    by_cases hPath : path' = path
    · subst hPath
      rw [beq_self_eq_true, hAbsent]
      exact hLookup
    · have hKey : (key schema path' == key schema path) = false :=
        beq_false_of_ne fun hEq => hPath (congrArg ResolverKey.path hEq)
      rw [hKey]
      rfl

theorem agree_resolve_of_alike (path : String) :
    Agree (Alike catalog schema) (fun _ => True) (resolve catalog schema path)
      (resolve catalog schema path) := by
  intro r r' h
  refine ⟨h.answer_eq path, fun _ _ => trivial, ?_⟩
  exact ((alike_outcome_resolve r path).symm.trans h).trans (alike_outcome_resolve r' path)

theorem agree_resolveRelation_of_alike (path : String) :
    Agree (Alike catalog schema) (fun _ => True) (resolveRelation catalog schema path)
      (resolveRelation catalog schema path) := by
  intro r r' h
  rw [outcome_resolveRelation, outcome_resolveRelation, lookupRelation_eq, lookupRelation_eq,
    h.maxDepth_eq, h.policy_eq]
  exact ⟨rfl, fun _ _ => trivial, h⟩

end Resolver

end

end RecordFilter
