import Joinery.Sql.Dialect

/-!
Contract: reading quoted names back.

A quoted name ends at the first quote character that stands alone; a doubled
one is a character of the name. What follows must therefore not begin with
the quote character, or it would make the closing quote a doubled one.

Owns: the scanner of quoted names, and that it undoes quoting.

Does not own: which texts follow a name in a statement.
-/

namespace Joinery.Sql.Dialect

variable (mark : Char)

/-- The characters of a name with every quote character twice. -/
def doubled (name : List Char) : List Char :=
  name.flatMap fun c => if c = mark then [mark, mark] else [c]

/-- Reads a name up to the first quote character that stands alone, and gives
what follows it. -/
def scanName : List Char → Option (List Char × List Char)
  | [] => none
  | [c] => if c = mark then some ([], []) else none
  | c :: next :: rest =>
      if c = mark then
        if next = mark then (scanName rest).map fun scanned => (mark :: scanned.1, scanned.2)
        else some ([], next :: rest)
      else (scanName (next :: rest)).map fun scanned => (c :: scanned.1, scanned.2)

/-- Reads a quoted name. -/
def scanQuoted : List Char → Option (String × List Char)
  | [] => none
  | c :: rest =>
      if c = mark then (scanName mark rest).map fun scanned => (String.ofList scanned.1, scanned.2)
      else none

variable {mark}

theorem toList_quoteWith (name : String) :
    (quoteWith mark name).toList = mark :: (doubled mark name.toList ++ [mark]) := by
  simp [quoteWith, doubled]

theorem scanName_closing {text : List Char} (ends : text.head? ≠ some mark) :
    scanName mark (mark :: text) = some ([], text) := by
  cases text with
  | nil => simp [scanName]
  | cons c rest =>
      have other : c ≠ mark := by simpa using ends
      simp [scanName, other]

theorem scanName_cons_of_ne {c : Char} (other : c ≠ mark) {text : List Char}
    (notEmpty : text ≠ []) :
    scanName mark (c :: text) =
      (scanName mark text).map fun scanned => (c :: scanned.1, scanned.2) := by
  cases text with
  | nil => exact absurd rfl notEmpty
  | cons next rest => simp [scanName, other]

theorem scanName_doubled (name : List Char) {text : List Char} (ends : text.head? ≠ some mark) :
    scanName mark (doubled mark name ++ mark :: text) = some (name, text) := by
  induction name with
  | nil => exact scanName_closing ends
  | cons c others inductionHypothesis =>
      by_cases isMark : c = mark
      · subst isMark
        have twice : doubled c (c :: others) = c :: c :: doubled c others := by
          simp [doubled]
        rw [twice, List.cons_append, List.cons_append, scanName, if_pos rfl, if_pos rfl,
          inductionHypothesis]
        rfl
      · have once : doubled mark (c :: others) = c :: doubled mark others := by
          simp [doubled, isMark]
        rw [once, List.cons_append, scanName_cons_of_ne isMark (by simp), inductionHypothesis]
        rfl

/-- The scanner takes exactly the quoted name and gives the name back. -/
theorem scanQuoted_quoteWith (name : String) {text : List Char}
    (ends : text.head? ≠ some mark) :
    scanQuoted mark ((quoteWith mark name).toList ++ text) = some (name, text) := by
  rw [toList_quoteWith, List.cons_append, List.append_assoc, List.singleton_append, scanQuoted,
    if_pos rfl, scanName_doubled name.toList ends]
  simp

end Joinery.Sql.Dialect
