import RecordFilter.Value

/-!
# Records

A record holds values under field names and loaded records under relation names. A name it does not
hold reads as null, or as a relation that is not loaded.
-/

namespace RecordFilter

inductive Record where
  | mk (fields : List (String × Value)) (relations : List (String × Record))
deriving Inhabited

namespace Record

def fields : Record → List (String × Value)
  | mk fs _ => fs

def relations : Record → List (String × Record)
  | mk _ rs => rs

def field (r : Record) (name : String) : Value := (r.fields.lookup name).getD .null

def relation? (r : Record) (name : String) : Option Record := r.relations.lookup name

def follow? (r : Record) : List String → Option Record
  | [] => some r
  | name :: names => (r.relation? name).bind fun next => next.follow? names

/-- The field at the end of a path of relations; null if one of them is not loaded. -/
def read (r : Record) (hops : List String) (leaf : String) : Value :=
  match r.follow? hops with
  | some owner => owner.field leaf
  | none => .null

end Record

end RecordFilter
