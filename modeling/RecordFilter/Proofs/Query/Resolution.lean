import RecordFilter.Proofs.Query.Session
import RecordFilter.Proofs.Schema.Declared

/-!
# Resolving declared paths

At any point of a session whose schemas are told apart, a resolver finds a path exactly if it is
declared and not too deep, and what it finds describes the relations and the field that the path is
declared to lead to.
-/

namespace RecordFilter

open Resolving Resolver

section
variable {κ : Type} {catalog : Catalog κ}

theorem Resolver.Exact.describes_of_resolve {r : Resolver κ} {schema : RecordSchema κ}
    (h : r.Exact catalog schema) {path : String} {f : ResolvedField κ}
    (hFound : ((resolve catalog schema path).outcome r).1 = .ok (some f)) :
    ∃ rs leaf, schema.Declares catalog (Text.splitDots path) rs leaf ∧
      f.Describes catalog schema (Text.splitDots path) rs leaf := by
  rw [h.outcome_resolve_fst] at hFound
  exact RecordSchema.declares_of_fieldAt? (fieldAt?_of_lookup hFound)

theorem Resolver.joinedAlong_of_resolveRelation {r : Resolver κ} {schema : RecordSchema κ}
    {path : String} {joins : List (JoinSpec κ)}
    (hFound : ((resolveRelation catalog schema path).outcome r).1 = .ok (some joins)) :
    ∃ rs t last, schema.Leads catalog (Text.splitDots path) rs t ∧
      JoinedAlong catalog schema.table rs joins last :=
  RecordSchema.joinedAlong_of_joinsOf? (joinsOf?_of_resolveRelation (Prod.ext hFound rfl))

/-- A fresh resolver, or one that has served requests to schemas that are told apart, finds a path
exactly if it has at most as many segments as allowed and the schemas declare it. What it finds
describes the declared relations and field, and reads a record over the same relations. What it does
not find it drops, or else it names the reason. Paths of relations alone are found likewise. -/
theorem resolve_finds_declared_paths {schema : RecordSchema κ} {requests : List (Request κ)}
    (hSchemas : ToldApart (schema :: requests.map (·.schema))) (maxDepth : Nat)
    (policy : UnknownFieldPolicy) (path : String) :
    let r : Resolver κ := (answers catalog requests { maxDepth, policy }).2
    let segments := Text.splitDots path
    let field := ((resolve catalog schema path).outcome r).1
    let joins := ((resolveRelation catalog schema path).outcome r).1
    Text.DotSeparated path segments ∧
      policy.AnswersPath maxDepth schema.name path segments.length
        (∃ rs leaf, schema.Declares catalog segments rs leaf) field ∧
      (∀ f, field = .ok (some f) → ∃ rs leaf, schema.Declares catalog segments rs leaf ∧
        f.Describes catalog schema segments rs leaf) ∧
      policy.AnswersPath maxDepth schema.name path segments.length
        (∃ rs t, schema.Leads catalog segments rs t) joins ∧
      (∀ js, joins = .ok (some js) → ∃ rs t last, schema.Leads catalog segments rs t ∧
        JoinedAlong catalog schema.table rs js last) := by
  intro r segments field joins
  have hStart : ({ maxDepth, policy } : Resolver κ).Remembers catalog [] { maxDepth, policy } :=
    ⟨rfl, rfl, List.nodup_nil, nofun⟩
  have hSession : ToldApart (requests.map (·.schema)) := fun s hs t ht =>
    hSchemas s (List.mem_cons_of_mem _ hs) t (List.mem_cons_of_mem _ ht)
  have hRemembers : r.Remembers catalog requests { maxDepth, policy } :=
    (hStart.answers rfl hSession).2
  have hExact : r.Exact catalog schema := hRemembers.exact hSchemas
  have hDepth : r.maxDepth = maxDepth := hRemembers.maxDepth_eq
  have hPolicy : r.policy = policy := hRemembers.policy_eq
  have hField : field = r.lookup catalog schema path := hExact.outcome_resolve_fst path
  have hJoins : joins = r.lookupRelation catalog schema path := by
    change ((resolveRelation catalog schema path).outcome r).1 = _
    rw [outcome_resolveRelation]
  refine ⟨Text.dotSeparated_splitDots path, ?_, fun f hFound => hExact.describes_of_resolve hFound,
    ?_, fun js hFound => joinedAlong_of_resolveRelation hFound⟩
  · rw [hField, ← hDepth, ← hPolicy]
    exact answersPath_lookup path
  · rw [hJoins, ← hDepth, ← hPolicy]
    exact answersPath_lookupRelation path

end

namespace Tracker

/-- A board whose lead has a mentor, whose team is not loaded. -/
def mentorless : Record :=
  .mk [] [("lead", .mk [("name", .text "Ada")] [("mentor", .mk [("name", .text "Grace")] [])])]

theorem leads_mentor_team :
    boards.Leads catalog ["lead", "mentor", "team"] [⟨"lead", "lead_id", "id", .member⟩,
      ⟨"mentor", "mentor_id", "id", .member⟩, ⟨"team", "team_id", "id", .team⟩] teams := by
  refine .step ⟨rfl, [], [], rfl, nofun⟩ (.step ⟨rfl, ?_⟩ (.step ⟨rfl, ?_⟩ (.here _)))
  · exact ⟨[⟨"team", "team_id", "id", .team⟩], [], rfl, by simp⟩
  · exact ⟨[], [⟨"mentor", "mentor_id", "id", .member⟩], rfl, nofun⟩

theorem resolve_mentor_team_name_after_session :
    ToldApart (boards :: session.map (·.schema)) ∧
      let r := (answers catalog session resolver).2
      (∃ f, ((resolve catalog boards "lead.mentor.team.name").outcome r).1 = .ok (some f) ∧
        f.hops = ["lead", "mentor", "team"] ∧ f.read mentorless = .null) ∧
      ((resolve catalog boards "lead.mentor.mentor.team.name").outcome r).1 =
        .error (.fieldTooDeep "lead.mentor.mentor.team.name" 4) := by
  have hSchemas : ToldApart (boards :: session.map (·.schema)) := by
    have hSub : boards :: session.map (·.schema) ⊆ session.map (·.schema) :=
      List.cons_subset.mpr ⟨List.mem_cons_self, List.Subset.refl _⟩
    exact fun s hs t ht => toldApart_session s (hSub hs) t (hSub ht)
  obtain ⟨-, hAnswer, hDescribes, -⟩ := @resolve_finds_declared_paths Entity catalog boards session
    hSchemas 4 .reject "lead.mentor.team.name"
  obtain ⟨-, hDeep, -⟩ := @resolve_finds_declared_paths Entity catalog boards session
    hSchemas 4 .reject "lead.mentor.mentor.team.name"
  refine ⟨hSchemas, ?_, hDeep.tooDeep_iff.mpr ⟨rfl, by decide⟩⟩
  have hSegments : Text.splitDots "lead.mentor.team.name" =
      ["lead", "mentor", "team"] ++ ["name"] := by decide
  have hDeclares : boards.Declares catalog (Text.splitDots "lead.mentor.team.name") _
      ⟨"name", "name", .text⟩ :=
    ⟨_, "name", teams, hSegments, leads_mentor_team, rfl, [⟨"id", "id", .integer⟩], [], rfl,
      by simp⟩
  obtain ⟨f, hFound⟩ := hAnswer.found_iff.mpr ⟨by decide, _, _, hDeclares⟩
  obtain ⟨rs, leaf, -, hDescribed⟩ := hDescribes f hFound
  have hHops : f.hops = ["lead", "mentor", "team"] :=
    (List.append_inj' (hDescribed.segments_eq.trans hSegments) rfl).1
  refine ⟨f, hFound, hHops, hDescribed.read_of_not_reaches _ ?_⟩
  rw [hHops]
  intro t hReaches
  cases Record.follow?_eq_some_iff.mpr hReaches

end Tracker

end RecordFilter
