/-!
# Case folding and search

Text is matched without regard to the case of ASCII letters; every other character stands for
itself. The three ways of searching a folded text are on lists of characters.
-/

namespace RecordFilter.Text

def fold (s : String) : String := String.ofList (s.toList.map Char.toLower)

@[simp] theorem toList_fold (s : String) : (fold s).toList = s.toList.map Char.toLower := by
  simp [fold]

def occursIn (needle : List Char) : List Char → Bool
  | [] => needle.isEmpty
  | c :: cs => needle.isPrefixOf (c :: cs) || occursIn needle cs

theorem occursIn_iff {needle cs : List Char} : occursIn needle cs ↔ needle <:+: cs := by
  induction cs with
  | nil => simp [occursIn]
  | cons c cs ih => simp [occursIn, ih, List.infix_cons_iff]

end RecordFilter.Text
