/-!
# Named choices

The choices a caller makes by name (modes, data types, directions and the like). Every choice has
one name of its own, in which it is written, and may have further names under which it is read.
-/

namespace RecordFilter

class Named (α : Type) where
  all : List α
  name : α → String
  /-- Further names under which the choice is read. -/
  aliases : α → List String := fun _ => []

def Named.ofName? {α : Type} [Named α] (s : String) : Option α :=
  (all (α := α)).find? fun a => name a == s || (aliases a).contains s

end RecordFilter
