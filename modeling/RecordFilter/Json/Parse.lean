import RecordFilter.Json.Scan

/-!
# Parsing JSON

The tokens of a text drive a machine that keeps the arrays and objects still open. The machine takes
one step per token, so nesting may be as deep as the text is long.
-/

namespace RecordFilter

/-- An array or object that is still open, with what it holds so far in reverse. -/
inductive OpenJson where
  | array (items : List Json)
  /-- The value of the key is being read. -/
  | object (members : List (Option String × Json)) (key : Option String)

inductive JsonParser where
  | value (outer : List OpenJson)
  | firstItem (outer : List OpenJson)
  | firstKey (outer : List OpenJson)
  | key (members : List (Option String × Json)) (outer : List OpenJson)
  | colon (members : List (Option String × Json)) (key : Option String) (outer : List OpenJson)
  | done (j : Json) (outer : List OpenJson)

namespace JsonParser

/-- The state after a token where a value is due. -/
def startValue? (outer : List OpenJson) : Token → Option JsonParser
  | .openArray => some (firstItem outer)
  | .openObject => some (firstKey outer)
  | .null => some (done .null outer)
  | .bool b => some (done (.bool b) outer)
  | .number n => some (done (.number n) outer)
  | .string s => some (done (.string s) outer)
  | _ => none

def step? : JsonParser → Token → Option JsonParser
  | value outer, t => startValue? outer t
  | firstItem outer, .closeArray => some (done (.array []) outer)
  | firstItem outer, t => startValue? (.array [] :: outer) t
  | firstKey outer, .closeObject => some (done (.object []) outer)
  | firstKey outer, .string k => some (colon [] k outer)
  | key members outer, .string k => some (colon members k outer)
  | colon members k outer, .colon => some (value (.object members k :: outer))
  | done j (.array items :: outer), .comma => some (value (.array (j :: items) :: outer))
  | done j (.array items :: outer), .closeArray => some (done (.array (j :: items).reverse) outer)
  | done j (.object members k :: outer), .comma => some (key ((k, j) :: members) outer)
  | done j (.object members k :: outer), .closeObject =>
    some (done (.object ((k, j) :: members).reverse) outer)
  | _, _ => none

def run? (p : JsonParser) : List Token → Option JsonParser
  | [] => some p
  | t :: ts => match p.step? t with
    | some p => p.run? ts
    | none => none

theorem run?_append (p : JsonParser) (ts us : List Token) :
    p.run? (ts ++ us) = (p.run? ts).bind fun p => p.run? us := by
  induction ts generalizing p with
  | nil => rfl
  | cons t ts ih =>
    simp only [List.cons_append, run?]
    cases p.step? t with
    | none => rfl
    | some p => exact ih p

end JsonParser

def Json.ofTokens? (ts : List Token) : Option Json :=
  match (JsonParser.value []).run? ts with
  | some (.done j []) => some j
  | _ => none

def Json.parse? (s : String) : Option Json := (Token.scan? s.toList []).bind Json.ofTokens?

end RecordFilter
