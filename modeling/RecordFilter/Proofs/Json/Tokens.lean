import Mathlib.Data.List.Chain
import RecordFilter.Json.Parse
import RecordFilter.Json.Print

/-!
# Parsing printed tokens

No two values have the same tokens: the machine that reads the tokens of a value ends with the value
itself. It takes no number right after another, so two numbers never stand side by side.
-/

namespace RecordFilter

/-- Induction on a value, its parts being the items of an array and the values of an object. -/
theorem Json.induct {P : Json → Prop} (null : P .null) (bool : ∀ b, P (.bool b))
    (number : ∀ n, P (.number n)) (string : ∀ s, P (.string s))
    (array : ∀ items : List Json, (∀ j ∈ items, P j) → P (.array items))
    (object : ∀ members : List (Option String × Json), (∀ m ∈ members, P m.2) →
      P (.object members)) : ∀ j, P j
  | .null => null
  | .bool b => bool b
  | .number n => number n
  | .string s => string s
  | .array items => array items fun j _ => Json.induct null bool number string array object j
  | .object members => object members fun m _ =>
    Json.induct null bool number string array object m.2
termination_by j => sizeOf j
decreasing_by
  · rename_i hj
    have := List.sizeOf_lt_of_mem hj
    simp only [Json.array.sizeOf_spec]
    omega
  · rename_i hm
    have := List.sizeOf_lt_of_mem hm
    have hPair : sizeOf m = 1 + sizeOf m.1 + sizeOf m.2 := rfl
    simp only [Json.object.sizeOf_spec]
    omega

namespace JsonParser

variable {p q : JsonParser} {outer : List OpenJson}

/-- The state takes the tokens of a value, which belongs to the innermost of what is open. -/
def Awaits (p : JsonParser) (outer : List OpenJson) : Prop :=
  ∀ t, t ≠ .closeArray → p.step? t = startValue? outer t

/-- The state takes the key of a member, after some members in reverse. -/
def AwaitsKey (p : JsonParser) (members : List (Option String × Json)) (outer : List OpenJson) :
    Prop :=
  ∀ k, p.step? (.string k) = some (colon members k outer)

theorem awaits_value (outer : List OpenJson) : (value outer).Awaits outer := fun _ _ => rfl

theorem awaits_firstItem (outer : List OpenJson) :
    (firstItem outer).Awaits (.array [] :: outer) := by
  intro t ht
  cases t <;> first | rfl | exact absurd rfl ht

theorem awaitsKey_firstKey (outer : List OpenJson) : (firstKey outer).AwaitsKey [] outer :=
  fun _ => rfl

theorem awaitsKey_key (members : List (Option String × Json)) (outer : List OpenJson) :
    (key members outer).AwaitsKey members outer := fun _ => rfl

theorem run?_cons_of_step? {t : Token} {ts : List Token} (h : p.step? t = some q) :
    p.run? (t :: ts) = q.run? ts := by
  rw [run?, h]

/-- Wherever the tokens of the value are read, they leave the value. -/
def Leaves (j : Json) : Prop :=
  ∀ p outer, Awaits p outer → p.run? j.tokens = some (done j outer)

theorem leaves_of_token {j : Json} {t : Token} (hTokens : j.tokens = [t]) (ht : t ≠ .closeArray)
    (hStart : ∀ outer, startValue? outer t = some (done j outer)) : Leaves j := by
  intro p outer h
  rw [hTokens, run?_cons_of_step? ((h t ht).trans (hStart outer))]
  rfl

theorem run?_itemTokens {items js : List Json} (h : p.Awaits (.array items :: outer))
    (hLeaves : ∀ j ∈ js, Leaves j) (hNonempty : js ≠ []) :
    p.run? (Json.itemTokens js ++ [.closeArray]) =
      some (done (.array (items.reverse ++ js)) outer) := by
  induction js generalizing p items with
  | nil => exact absurd rfl hNonempty
  | cons j js ih =>
    have hFirst := hLeaves j List.mem_cons_self p _ h
    cases js with
    | nil =>
      rw [Json.itemTokens, run?_append, hFirst]
      simp [run?, step?]
    | cons j' js =>
      rw [Json.itemTokens, List.append_assoc, run?_append, hFirst, Option.bind_some,
        List.cons_append, run?_cons_of_step? rfl,
        ih (awaits_value _) (fun i hi => hLeaves i (List.mem_cons_of_mem _ hi)) (List.cons_ne_nil _ _)]
      · simp
      · exact List.cons_ne_nil _ _

theorem run?_memberTokens {members ms : List (Option String × Json)} (h : p.AwaitsKey members outer)
    (hLeaves : ∀ m ∈ ms, Leaves m.2) (hNonempty : ms ≠ []) :
    p.run? (Json.memberTokens ms ++ [.closeObject]) =
      some (done (.object (members.reverse ++ ms)) outer) := by
  induction ms generalizing p members with
  | nil => exact absurd rfl hNonempty
  | cons m ms ih =>
    obtain ⟨k, j⟩ := m
    have hFirst := hLeaves _ List.mem_cons_self _ _ (awaits_value (.object members k :: outer))
    cases ms with
    | nil =>
      rw [Json.memberTokens, List.cons_append, List.cons_append, run?_cons_of_step? (h k),
        run?_cons_of_step? rfl, run?_append, hFirst]
      simp [run?, step?]
    | cons m ms =>
      have hRest := ih (awaitsKey_key ((k, j) :: members) outer)
        (fun i hi => hLeaves i (List.mem_cons_of_mem _ hi)) (List.cons_ne_nil _ _)
      rw [Json.memberTokens, List.cons_append, List.cons_append, List.append_assoc,
        run?_cons_of_step? (h k), run?_cons_of_step? rfl, run?_append, hFirst, Option.bind_some,
        List.cons_append, run?_cons_of_step? rfl, hRest]
      · simp
      · exact List.cons_ne_nil _ _

theorem leaves (j : Json) : Leaves j := by
  induction j using Json.induct with
  | null => exact leaves_of_token rfl nofun fun _ => rfl
  | bool b => exact leaves_of_token rfl nofun fun _ => rfl
  | number n => exact leaves_of_token rfl nofun fun _ => rfl
  | string s => exact leaves_of_token rfl nofun fun _ => rfl
  | array items hItems =>
    intro p outer h
    rw [Json.tokens, run?_cons_of_step? (h .openArray nofun)]
    cases items with
    | nil => rfl
    | cons j js => exact run?_itemTokens (awaits_firstItem outer) hItems (List.cons_ne_nil _ _)
  | object members hMembers =>
    intro p outer h
    rw [Json.tokens, run?_cons_of_step? (h .openObject nofun)]
    cases members with
    | nil => rfl
    | cons m ms => exact run?_memberTokens (awaitsKey_firstKey outer) hMembers (List.cons_ne_nil _ _)

end JsonParser

theorem Json.ofTokens?_tokens (j : Json) : Json.ofTokens? j.tokens = some j := by
  rw [ofTokens?, JsonParser.leaves j _ _ (JsonParser.awaits_value [])]

def Token.isNumber : Token → Bool
  | number _ => true
  | _ => false

def Token.Apart (t u : Token) : Prop := t.isNumber = true → u.isNumber = false

namespace JsonParser

variable {p q : JsonParser}

theorem step?_done_number (j : Json) (outer : List OpenJson) (n : Option Number) :
    (done j outer).step? (.number n) = none := by
  rcases outer with _ | ⟨_ | _, _⟩ <;> rfl

theorem done_of_step?_number {n : Option Number} (h : p.step? (.number n) = some q) :
    ∃ j outer, q = done j outer := by
  cases p with
  | value outer | firstItem outer =>
    cases h
    exact ⟨_, _, rfl⟩
  | done j outer =>
    rw [step?_done_number] at h
    cases h
  | _ => cases h

theorem isChain_of_run? {ts : List Token} (h : p.run? ts = some q) : ts.IsChain Token.Apart := by
  induction ts generalizing p with
  | nil => exact .nil
  | cons t ts ih =>
    rw [run?] at h
    split at h
    · rename_i p' hStep
      cases ts with
      | nil => exact .singleton t
      | cons u ts =>
        refine .cons_cons ?_ (ih h)
        intro ht
        cases t with
        | number n =>
          obtain ⟨j, outer, rfl⟩ := done_of_step?_number hStep
          cases u with
          | number m =>
            rw [run?, step?_done_number] at h
            cases h
          | _ => rfl
        | _ => cases ht
    · cases h

end JsonParser

theorem Json.isChain_tokens (j : Json) : j.tokens.IsChain Token.Apart :=
  JsonParser.isChain_of_run? (JsonParser.leaves j _ _ (JsonParser.awaits_value []))

end RecordFilter
