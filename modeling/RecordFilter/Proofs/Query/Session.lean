import RecordFilter.Proofs.Query.Joins
import RecordFilter.Proofs.Query.Restricted

/-!
# Sessions on one resolver

A session is a row of requests to one resolver; some of them may fail or be dropped. What it has
remembered does not show as long as the schemas of the session are told apart by table and record
name: every request is answered as a fresh resolver would answer it. What is remembered are fields
that were asked for and found, each once.
-/

namespace RecordFilter

open Resolving Resolver

section
variable {κ : Type}

inductive Request (κ : Type) where
  | field (schema : RecordSchema κ) (path : String)
  | relation (schema : RecordSchema κ) (path : String)
  | query (schema : RecordSchema κ) (spec : Specification)

inductive Answer (κ : Type) where
  | field (found : Option (ResolvedField κ))
  | relation (found : Option (List (JoinSpec κ)))
  | query (q : CompiledQuery κ)

namespace Request

def schema : Request κ → RecordSchema κ
  | field schema _ | relation schema _ | query schema _ => schema

def run (catalog : Catalog κ) : Request κ → Resolving κ (Answer κ)
  | field schema path => return .field (← Resolver.resolve catalog schema path)
  | relation schema path => return .relation (← Resolver.resolveRelation catalog schema path)
  | query schema spec => return .query (← spec.compile catalog schema)

/-- The paths that may be resolved to fields. Relations are walked anew each time. -/
def paths : Request κ → List String
  | field _ path => [path]
  | relation _ _ => []
  | query schema spec => spec.fieldPaths ++ (schema.primaryKeyField?.map (·.name)).toList

end Request

def answers (catalog : Catalog κ) :
    List (Request κ) → Resolver κ → List (Except FilterError (Answer κ)) × Resolver κ
  | [], r => ([], r)
  | q :: qs, r =>
    let (answer, r) := (q.run catalog).outcome r
    let (rest, r) := answers catalog qs r
    (answer :: rest, r)

/-- Schemas of one table and one record name are equal. -/
def ToldApart (schemas : List (RecordSchema κ)) : Prop :=
  ∀ s ∈ schemas, ∀ t ∈ schemas, s.table = t.table → s.name = t.name → s = t

variable {catalog : Catalog κ}

theorem Request.agree_run {R : Resolver κ → Resolver κ → Prop} (q : Request κ)
    (hPaths : ∀ path ∈ q.paths,
      Agree R (fun _ => True) (resolve catalog q.schema path) (resolve catalog q.schema path))
    (hRelations : ∀ path, Agree R (fun _ => True) (resolveRelation catalog q.schema path)
      (resolveRelation catalog q.schema path)) :
    Agree R (fun _ => True) (q.run catalog) (q.run catalog) := by
  cases q with
  | field schema path => exact (hPaths path List.mem_cons_self).bind fun found => agree_pure _
  | relation schema path => exact (hRelations path).bind fun found => agree_pure _
  | query schema spec =>
    refine (Specification.agree_compile ?_ ?_ ?_ ?_).bind fun q => agree_pure _
    · intro path hPath
      exact hPaths path (List.mem_append_left _ hPath)
    · intro f hKey
      apply hPaths
      simp [Request.paths, hKey]
    · intro path _
      exact hRelations path
    · intro f _ kind e _
      trivial

theorem Request.preserves_run {P : Resolver κ → Prop} (q : Request κ)
    (hPaths : ∀ path ∈ q.paths, Preserves P (resolve catalog q.schema path)) :
    Preserves P (q.run catalog) := by
  refine Agree.preserves (q.agree_run ?_ ?_)
  · intro path hPath
    exact (hPaths path hPath).agree fun _ _ _ _ => trivial
  · intro path
    exact (preserves_resolveRelation path).agree fun _ _ _ _ => trivial

variable (catalog) in
/-- What a fresh resolver has become by some requests. -/
structure Resolver.Remembers (r : Resolver κ) (requests : List (Request κ)) (fresh : Resolver κ) :
    Prop where
  maxDepth_eq : r.maxDepth = fresh.maxDepth
  policy_eq : r.policy = fresh.policy
  nodup : (r.cache.map (·.1)).Nodup
  asked : ∀ entry ∈ r.cache, ∃ q ∈ requests, ∃ path ∈ q.paths, entry.1 = key q.schema path ∧
    fresh.lookup catalog q.schema path = .ok (some entry.2)

theorem Resolver.lookup_congr {r r' : Resolver κ} (hDepth : r.maxDepth = r'.maxDepth)
    (hPolicy : r.policy = r'.policy) (schema : RecordSchema κ) (path : String) :
    r.lookup catalog schema path = r'.lookup catalog schema path := by
  rw [lookup_eq, lookup_eq, hDepth, hPolicy]

section
variable {requests : List (Request κ)} {fresh r : Resolver κ}

theorem Resolver.Remembers.mono {more : List (Request κ)} (h : r.Remembers catalog requests fresh)
    (hMore : requests ⊆ more) : r.Remembers catalog more fresh := by
  refine ⟨h.maxDepth_eq, h.policy_eq, h.nodup, fun entry hEntry => ?_⟩
  obtain ⟨q, hq, hFound⟩ := h.asked entry hEntry
  exact ⟨q, hMore hq, hFound⟩

theorem Resolver.preserves_resolve_remembers {q : Request κ} (hq : q ∈ requests) {path : String}
    (hPath : path ∈ q.paths) :
    Preserves (fun r => r.Remembers catalog requests fresh) (resolve catalog q.schema path) := by
  intro r h
  rcases outcome_resolve_snd catalog q.schema r path with
    hSame | ⟨field, hAbsent, hLookup, hRemembered⟩
  · rwa [hSame]
  · rw [hRemembered]
    refine ⟨h.maxDepth_eq, h.policy_eq, ?_, ?_⟩
    · -- What is remembered anew was absent, so no key comes twice.
      refine List.nodup_cons.mpr ⟨?_, h.nodup⟩
      intro hMem
      obtain ⟨entry, hEntry, hKey⟩ := List.mem_map.mp hMem
      have hOther := List.lookup_eq_none_iff.mp hAbsent entry hEntry
      rw [hKey, bne_self_eq_false] at hOther
      cases hOther
    · intro entry hEntry
      rcases List.mem_cons.mp hEntry with rfl | hEntry
      · rw [lookup_congr h.maxDepth_eq h.policy_eq] at hLookup
        exact ⟨q, hq, path, hPath, rfl, hLookup⟩
      · exact h.asked entry hEntry

theorem Resolver.Remembers.lookup_of_mem (h : r.Remembers catalog requests fresh)
    {schema : RecordSchema κ} (hSchemas : ToldApart (schema :: requests.map (·.schema)))
    {path : String} {field : ResolvedField κ} (hEntry : (key schema path, field) ∈ r.cache) :
    fresh.lookup catalog schema path = .ok (some field) := by
  obtain ⟨q, hq, path', -, hKey, hLookup⟩ := h.asked _ hEntry
  -- The key has the table and the name of the schema only, which is where they must tell it apart.
  simp only [key, ResolverKey.mk.injEq] at hKey
  obtain ⟨hTable, hName, rfl⟩ := hKey
  have hSchema : schema = q.schema := hSchemas schema List.mem_cons_self q.schema
    (List.mem_cons_of_mem _ (List.mem_map_of_mem hq)) hTable hName
  rw [hSchema]
  exact hLookup

theorem Resolver.Remembers.exact (h : r.Remembers catalog requests fresh)
    {schema : RecordSchema κ} (hSchemas : ToldApart (schema :: requests.map (·.schema))) :
    r.Exact catalog schema := by
  intro path field hCached
  obtain ⟨before, after, hCache, -⟩ := List.lookup_eq_some_iff.mp hCached
  have hEntry : (key schema path, field) ∈ r.cache := by
    rw [hCache]
    exact List.mem_append_right _ List.mem_cons_self
  have hLookup := h.lookup_of_mem hSchemas hEntry
  rw [lookup_eq, UnknownFieldPolicy.answer_eq_ok_some_iff] at hLookup
  rw [h.maxDepth_eq]
  exact hLookup

theorem Resolver.Remembers.run (hFresh : fresh.cache = []) (h : r.Remembers catalog requests fresh)
    {q : Request κ} (hSchemas : ToldApart (q.schema :: requests.map (·.schema))) :
    ((q.run catalog).outcome r).1 = ((q.run catalog).outcome fresh).1 ∧
      ((q.run catalog).outcome r).2.Remembers catalog (requests ++ [q]) fresh := by
  constructor
  · have hAlike : r.Alike catalog q.schema fresh :=
      (h.exact hSchemas).alike (exact_of_cache_eq_nil hFresh) h.maxDepth_eq h.policy_eq
    have hAgree : Agree (Alike catalog q.schema) (fun _ => True) (q.run catalog) (q.run catalog) :=
      q.agree_run (fun path _ => agree_resolve_of_alike path) agree_resolveRelation_of_alike
    exact (hAgree r fresh hAlike).1
  · have hMem : q ∈ requests ++ [q] := List.mem_append_right _ (List.mem_singleton_self q)
    exact q.preserves_run (fun path hPath => preserves_resolve_remembers hMem hPath) r
      (h.mono (List.subset_append_left _ _))

theorem Resolver.Remembers.answers (hFresh : fresh.cache = [])
    (h : r.Remembers catalog requests fresh) {more : List (Request κ)}
    (hSchemas : ToldApart ((requests ++ more).map (·.schema))) :
    (answers catalog more r).1 = more.map (fun q => ((q.run catalog).outcome fresh).1) ∧
      (answers catalog more r).2.Remembers catalog (requests ++ more) fresh := by
  induction more generalizing requests r with
  | nil =>
    rw [List.append_nil]
    exact ⟨rfl, h⟩
  | cons q more ih =>
    have hOne : ToldApart (q.schema :: requests.map (·.schema)) := by
      have hSub : q.schema :: requests.map (·.schema) ⊆ (requests ++ q :: more).map (·.schema) := by
        simp
      exact fun s hs t ht => hSchemas s (hSub hs) t (hSub ht)
    obtain ⟨hAnswer, hNext⟩ := h.run hFresh hOne
    rw [List.append_cons] at hSchemas ⊢
    obtain ⟨hAnswers, hLast⟩ := ih hNext hSchemas
    refine ⟨?_, hLast⟩
    rw [List.map_cons, ← hAnswer, ← hAnswers]
    rfl

end

theorem Request.outcome_run_snd_of_lookup {q : Request κ} {r : Resolver κ}
    (h : ∀ path ∈ q.paths, ∀ field, r.lookup catalog q.schema path ≠ .ok (some field)) :
    ((q.run catalog).outcome r).2 = r := by
  refine q.preserves_run (P := (· = r)) (fun path hPath => ?_) r rfl
  rintro r rfl
  rcases outcome_resolve_snd catalog q.schema r path with hSame | ⟨field, -, hLookup, -⟩
  · exact hSame
  · exact absurd hLookup (h path hPath field)

/-- In a session whose schemas are told apart every request is answered as by a fresh resolver. At
every point the resolver remembers, each under its own key, only fields that were asked for, and
what it remembers is what is found without it. A request whose paths lead nowhere leaves it as it
was. -/
theorem answers_eq_map_fresh {requests : List (Request κ)}
    (hSchemas : ToldApart (requests.map (·.schema))) (maxDepth : Nat)
    (policy : UnknownFieldPolicy) :
    let fresh : Resolver κ := { maxDepth, policy }
    (answers catalog requests fresh).1 =
        requests.map (fun q => ((q.run catalog).outcome fresh).1) ∧
      ∀ before after, requests = before ++ after →
        let r := (answers catalog before fresh).2
        (r.cache.map (·.1)).Nodup ∧
        (∀ entry ∈ r.cache, ∃ q ∈ before, ∃ path ∈ q.paths, entry.1 = key q.schema path) ∧
        (∀ q ∈ requests, ∀ path field, (key q.schema path, field) ∈ r.cache →
          fresh.lookup catalog q.schema path = .ok (some field)) ∧
        ∀ q : Request κ,
          (∀ path ∈ q.paths, ∀ field, fresh.lookup catalog q.schema path ≠ .ok (some field)) →
            ((q.run catalog).outcome r).2 = r := by
  intro fresh
  have hStart : fresh.Remembers catalog [] fresh := ⟨rfl, rfl, List.nodup_nil, nofun⟩
  refine ⟨(hStart.answers rfl hSchemas).1, ?_⟩
  intro before after hSplit r
  have hBefore : before.map (·.schema) ⊆ requests.map (·.schema) := by
    rw [hSplit]
    simp
  have hKept : r.Remembers catalog before fresh :=
    (hStart.answers rfl fun s hs t ht => hSchemas s (hBefore hs) t (hBefore ht)).2
  refine ⟨hKept.nodup, ?_, ?_, ?_⟩
  · intro entry hEntry
    obtain ⟨q, hq, path, hPath, hKey, -⟩ := hKept.asked entry hEntry
    exact ⟨q, hq, path, hPath, hKey⟩
  · intro q hq path field hEntry
    refine hKept.lookup_of_mem ?_ hEntry
    have hSub : q.schema :: before.map (·.schema) ⊆ requests.map (·.schema) :=
      List.cons_subset.mpr ⟨List.mem_map_of_mem hq, hBefore⟩
    exact fun s hs t ht => hSchemas s (hSub hs) t (hSub ht)
  · intro q hNowhere
    apply Request.outcome_run_snd_of_lookup
    intro path hPath field
    rw [lookup_congr hKept.maxDepth_eq hKept.policy_eq]
    exact hNowhere path hPath field

end

namespace Tracker

/-- Some requests find what others asked for, one fails on the way to a name it has not, and one
fails at a name that is too deep. -/
def session : List (Request Entity) :=
  [.field boards "lead.name", .query boards mentored, .field boards "lead.nickname",
    .relation boards "lead.team", .query tasks { byTeams with sort := [⟨"due", .asc⟩] },
    .field boards "lead.mentor.mentor.team.name"]

def sessionPaths : List ResolverKey :=
  [⟨"tasks", "Task", "member.team.name"⟩, ⟨"tasks", "Task", "member__team.name"⟩,
    ⟨"boards", "Board", "id"⟩, ⟨"boards", "Board", "lead.mentor.team.name"⟩,
    ⟨"boards", "Board", "lead.name"⟩]

theorem toldApart_session : ToldApart (session.map (·.schema)) := by
  intro s hs t ht hTable _
  have hEither : ∀ u ∈ session.map (·.schema), u = boards ∨ u = tasks := by
    simp [session, Request.schema]
  rcases hEither s hs with rfl | rfl <;> rcases hEither t ht with rfl | rfl
  · rfl
  · exact absurd hTable (by decide)
  · exact absurd hTable (by decide)
  · rfl

theorem answers_of_session :
    (answers catalog session resolver).1 =
        session.map (fun q => ((q.run catalog).outcome resolver).1) ∧
      (answers catalog session resolver).2.cache.map (·.1) = sessionPaths ∧
      sessionPaths.Nodup := by
  have hKeys : (answers catalog session resolver).2.cache.map (·.1) = sessionPaths := rfl
  obtain ⟨hAnswers, hPoints⟩ := answers_eq_map_fresh toldApart_session 4 .reject
  obtain ⟨hNodup, -⟩ := hPoints session [] (List.append_nil session).symm
  exact ⟨hAnswers, hKeys, hKeys ▸ hNodup⟩

end Tracker

end RecordFilter
