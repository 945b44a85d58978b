import RecordFilter.Number

/-!
# JSON values

A document as a tree. Numbers and strings are kept even if they have no value here, a number
beyond every encoding or a string with half of a surrogate pair, because such parts matter only
where they are used. Members of an object stay in order and may repeat.
-/

namespace RecordFilter

inductive Json where
  | null
  | bool (b : Bool)
  /-- A number, none if its magnitude is beyond binary64. -/
  | number (n : Option Number)
  /-- A string, none if it is not Unicode text. -/
  | string (s : Option String)
  | array (items : List Json)
  | object (members : List (Option String × Json))
deriving Inhabited

namespace Json

def ofString (s : String) : Json := string (some s)

def ofNumber (n : Number) : Json := number (some n)

def ofMembers (members : List (String × Json)) : Json :=
  object (members.map fun (k, v) => (some k, v))

def get? (j : Json) (key : String) : Option Json :=
  match j with
  | object members => members.lookup (some key)
  | _ => none

mutual

/-- Whether all parts have a value and arrays and objects nest at most `depth` deep. -/
def isReadable (depth : Nat) : Json → Bool
  | null => true
  | bool _ => true
  | number n => n.isSome
  | string s => s.isSome
  | array items => match depth with
    | 0 => false
    | d + 1 => areReadable d items
  | object members => match depth with
    | 0 => false
    | d + 1 => membersReadable d members

def areReadable (depth : Nat) : List Json → Bool
  | [] => true
  | j :: js => isReadable depth j && areReadable depth js

def membersReadable (depth : Nat) : List (Option String × Json) → Bool
  | [] => true
  | (k, j) :: ms => k.isSome && isReadable depth j && membersReadable depth ms

end

end Json

end RecordFilter
