/-!
Contract: what differs between SQL dialects.

A dialect quotes names and marks the places of bound parameters. Both known
dialects quote a name with one character and write that character twice
inside the name.
-/

namespace Joinery.Sql

/-- The rules of one dialect. `placeholder` takes the number of parameters
that are bound before. -/
structure Dialect where
  name : String
  quote : String → String
  placeholder : Nat → String

namespace Dialect

/-- A name between two quote characters, with every quote character inside
it written twice. -/
def quoteWith (mark : Char) (name : String) : String :=
  String.ofList
    (mark :: name.toList.flatMap (fun c => if c = mark then [mark, mark] else [c]) ++ [mark])

/-- Double quotes around names, and numbered parameters `$1`, `$2`, … -/
def postgres : Dialect where
  name := "PostgreSQL"
  quote := quoteWith '"'
  placeholder index := "$" ++ toString (index + 1)

/-- Grave accents around names, and a question mark for every parameter. -/
def mySql : Dialect where
  name := "MySQL"
  quote := quoteWith '\x60'
  placeholder _ := "?"

end Dialect

end Joinery.Sql
