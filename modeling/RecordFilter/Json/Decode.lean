import RecordFilter.Json.Basic
import RecordFilter.Named

/-!
# Decoding JSON

How the parts of a document are read as data. A structure is an object with its keys in any order,
or an array of its fields in order; a key may not repeat, keys that are not its own are skipped. A
choice is its name, or an object that holds null under the name.
-/

namespace RecordFilter.Json

def maxNesting : Nat := 127

/-- The values of fields found so far, with one more; none if it is there already. -/
def putField? {α : Type} (i : Nat) (a : α) (found : List (Option α)) : Option (List (Option α)) :=
  match found[i]? with
  | some none => some (found.set i (some a))
  | _ => none

/-- The values of the members under the given keys, each field having a key and its aliases. -/
def collectFields? (keys : List (List String)) (found : List (Option Json)) :
    List (Option String × Json) → Option (List (Option Json))
  | [] => some found
  | (none, _) :: _ => none
  | (some k, j) :: ms => match keys.findIdx? (·.contains k) with
    | some i => (putField? i j found).bind fun found => collectFields? keys found ms
    | none => collectFields? keys found ms

def fields? (keys : List (List String)) : Json → Option (List (Option Json))
  | object members => collectFields? keys (keys.map fun _ => none) members
  | array items =>
    if items.length ≤ keys.length then
      some (items.map some ++ List.replicate (keys.length - items.length) none)
    else none
  | _ => none

def asText? : Json → Option String
  | string s => s
  | _ => none

def choiceName? : Json → Option String
  | string s => s
  | object [(k, null)] => k
  | _ => none

def asChoice? {α : Type} [Named α] (j : Json) : Option α := j.choiceName?.bind Named.ofName?

def asList? {α : Type} (decode : Json → Option α) : Json → Option (List α)
  | array items => items.mapM decode
  | _ => none

def asNat? (bound : Nat) : Json → Option Nat
  | number (some n) => match n.integer? with
    | some n => if 0 ≤ n && n < bound then some n.toNat else none
    | none => none
  | _ => none

def orDefault? {α : Type} (decode : Json → Option α) (default : α) (j : Option Json) : Option α :=
  match j with
  | some j => decode j
  | none => some default

def optional? {α : Type} (decode : Json → Option α) (j : Option Json) : Option (Option α) :=
  match j with
  | none | some null => some none
  | some j => (decode j).map some

end RecordFilter.Json
