import Joinery.Proofs.Text.Scanning

/-!
Contract: quoted names end where their quoting ends.

Reading a quoted name takes a doubled quote character for one character of the
name and stops at the first that stands alone. Quoted names are read so, and
nothing else is: what is read is a quoted name, and what is left does not begin
with the quote character. No text of a name can therefore end its own quoting,
wherever a statement writes it: in a reference to a column, as a table, as its
schema, or as its alias.

Owns: the texts that are read as quoted names, and the reading of columns and
relations.

Does not own: the scanner of a single name, and whole statements.
-/

namespace Joinery.Sql.Dialect

variable {mark : Char}

/-! ## Texts that are read as quoted names -/

/-- What is read before the closing quote character is a name with its quote
characters doubled. -/
theorem eq_of_scanName {text name rest : List Char}
    (scanned : scanName mark text = some (name, rest)) :
    text = doubled mark name ++ mark :: rest ∧ rest.head? ≠ some mark := by
  -- Along the scanner: the text ends, or its first character is a closing, a
  -- doubled or no quote character.
  induction text using scanName.induct mark generalizing name rest with
  | case1 => cases scanned
  | case2 =>
      rw [scanName, if_pos rfl] at scanned
      cases scanned
      exact ⟨rfl, by simp⟩
  | case3 c other =>
      rw [scanName, if_neg other] at scanned
      cases scanned
  | case4 text inductionHypothesis =>
      rw [scanName, if_pos rfl, if_pos rfl, Option.map_eq_some_iff] at scanned
      obtain ⟨⟨name, rest⟩, further, same⟩ := scanned
      cases same
      obtain ⟨split, ends⟩ := inductionHypothesis further
      refine ⟨?_, ends⟩
      rw [split]
      simp [doubled]
  | case5 next text other =>
      rw [scanName, if_pos rfl, if_neg other] at scanned
      cases scanned
      exact ⟨rfl, by simpa using other⟩
  | case6 c next text other inductionHypothesis =>
      rw [scanName, if_neg other, Option.map_eq_some_iff] at scanned
      obtain ⟨⟨name, rest⟩, further, same⟩ := scanned
      cases same
      obtain ⟨split, ends⟩ := inductionHypothesis further
      refine ⟨?_, ends⟩
      rw [split]
      simp [doubled, other]

/-- The scanner reads quoted names in front of texts that do not go on with the
quote character, and nothing else. -/
theorem scanQuoted_eq_some_iff {text rest : List Char} {name : String} :
    scanQuoted mark text = some (name, rest) ↔
      text = (quoteWith mark name).toList ++ rest ∧ rest.head? ≠ some mark := by
  constructor
  · intro scanned
    cases text with
    | nil => cases scanned
    | cons c text =>
        rw [scanQuoted] at scanned
        split at scanned
        case isFalse => cases scanned
        case isTrue isMark =>
          obtain ⟨⟨chars, rest⟩, inner, same⟩ := Option.map_eq_some_iff.1 scanned
          cases same
          obtain ⟨split, ends⟩ := eq_of_scanName inner
          refine ⟨?_, ends⟩
          rw [split, isMark, toList_quoteWith]
          simp
  · rintro ⟨rfl, ends⟩
    exact scanQuoted_quoteWith name ends

/-! ## Reading columns and relations -/

variable (mark)

/-- Reads a name, and a second one if a point follows. The first is then the
qualifier. -/
def scanQualified (text : List Char) : Option (Ident × List Char) :=
  (scanQuoted mark text).bind fun scanned =>
    match scanned.2 with
    | '.' :: rest =>
        (scanQuoted mark rest).map fun further => (⟨some scanned.1, further.1⟩, further.2)
    | rest => some (⟨none, scanned.1⟩, rest)

/-- Reads a table, which its schema may qualify, and an alias if one follows. -/
def scanRelation (text : List Char) : Option (Relation × List Char) :=
  (scanQualified mark text).bind fun scanned =>
    let table : TableRef := ⟨scanned.1.qualifier, scanned.1.name⟩
    match scanned.2 with
    | ' ' :: 'A' :: 'S' :: ' ' :: rest =>
        (scanQuoted mark rest).map fun further => (⟨table, some further.1⟩, further.2)
    | rest => some (⟨table, none⟩, rest)

end Joinery.Sql.Dialect

namespace Joinery.Sql

/-- The text of a name that may be qualified. -/
def Ident.text (dialect : Dialect) (ident : Ident) : String :=
  match ident.qualifier with
  | some qualifier => dialect.quote qualifier ++ "." ++ dialect.quote ident.name
  | none => dialect.quote ident.name

/-- The text of a table under its alias. -/
def Relation.text (dialect : Dialect) (relation : Relation) : String :=
  let table := Ident.text dialect ⟨relation.table.schema, relation.table.name⟩
  match relation.aliasName with
  | some aliasName => table ++ " AS " ++ dialect.quote aliasName
  | none => table

theorem Renderer.sql_writeTable (renderer : Renderer) (table : TableRef) :
    (renderer.writeTable table).sql =
      renderer.sql ++ Ident.text renderer.dialect ⟨table.schema, table.name⟩ := by
  cases schema : table.schema <;>
    simp [writeTable, writeQualifier, writeName, write, Ident.text, schema, String.append_assoc]

theorem Expr.sql_render_identifier (renderer : Renderer) (ident : Ident) :
    ((Expr.identifier ident).render renderer).sql =
      renderer.sql ++ ident.text renderer.dialect :=
  renderer.sql_writeTable ⟨ident.qualifier, ident.name⟩

theorem Renderer.dialect_writeTable (renderer : Renderer) (table : TableRef) :
    (renderer.writeTable table).dialect = renderer.dialect := by
  cases schema : table.schema <;> simp [writeTable, writeQualifier, writeName, write, schema]

theorem Renderer.sql_writeRelation (renderer : Renderer) (relation : Relation) :
    (renderer.writeRelation relation).sql = renderer.sql ++ relation.text renderer.dialect := by
  cases aliasName : relation.aliasName <;>
    simp [writeRelation, Relation.text, aliasName, sql_writeTable, dialect_writeTable, writeName,
      write, String.append_assoc]

namespace Dialect

/-- The names of a dialect are delimited by a quote character: whatever a name
is, its text can be told from all that follows it in a statement. -/
structure Delimits (dialect : Dialect) (mark : Char) : Prop where
  /-- A scanner of quoted names reads the quoted names, each to its end. -/
  names (text : List Char) (name : String) (rest : List Char) :
    scanQuoted mark text = some (name, rest) ↔
      text = (dialect.quote name).toList ++ rest ∧ rest.head? ≠ some mark
  distinct : Function.Injective dialect.quote
  /-- A column is read back with its qualifier. -/
  columns (renderer : Renderer) (isDialect : renderer.dialect = dialect) (ident : Ident)
    (rest : List Char) (ends : rest.head? ≠ some mark) (noPoint : rest.head? ≠ some '.') :
    ((Expr.identifier ident).render renderer).sql = renderer.sql ++ ident.text dialect ∧
      scanQualified mark ((ident.text dialect).toList ++ rest) = some (ident, rest)
  /-- A relation is read back with its schema and alias. -/
  relations (renderer : Renderer) (isDialect : renderer.dialect = dialect) (relation : Relation)
    (rest : List Char) (ends : rest.head? ≠ some mark) (noPoint : rest.head? ≠ some '.')
    (noAlias : ¬ " AS ".toList <+: rest) :
    (renderer.writeRelation relation).sql = renderer.sql ++ relation.text dialect ∧
      scanRelation mark ((relation.text dialect).toList ++ rest) = some (relation, rest)

section Signs

variable {dialect : Dialect} {quoteMark placeMark : Char}
  (signs : dialect.Signs quoteMark placeMark)
include signs

theorem scanQuoted_quote (name : String) {rest : List Char}
    (ends : rest.head? ≠ some quoteMark) :
    scanQuoted quoteMark ((dialect.quote name).toList ++ rest) = some (name, rest) := by
  rw [signs.quotes]
  exact scanQuoted_quoteWith name ends

/-- No mark that may follow a name begins with the quote character. -/
theorem quoteMark_ne {c : Char} (isInitial : c ∈ Mark.initials) (rest : List Char) :
    (c :: rest).head? ≠ some quoteMark := by
  intro same
  obtain rfl : c = quoteMark := Option.some.inj same
  exact signs.notInitial.1 isInitial

theorem scanQualified_text (ident : Ident) {rest : List Char}
    (ends : rest.head? ≠ some quoteMark) (noPoint : rest.head? ≠ some '.') :
    scanQualified quoteMark ((ident.text dialect).toList ++ rest) = some (ident, rest) := by
  obtain ⟨qualifier, name⟩ := ident
  cases qualifier with
  | none =>
      have single : Ident.text dialect ⟨none, name⟩ = dialect.quote name := rfl
      rw [single, scanQualified, scanQuoted_quote signs name ends, Option.bind_some]
      dsimp only
      split
      case h_1 further => exact absurd rfl noPoint
      case h_2 => rfl
  | some qualifier =>
      have spelled : (Ident.text dialect ⟨some qualifier, name⟩).toList ++ rest =
          (dialect.quote qualifier).toList ++ '.' :: ((dialect.quote name).toList ++ rest) := by
        simp [Ident.text]
      have point := quoteMark_ne signs (by decide : '.' ∈ Mark.initials)
        ((dialect.quote name).toList ++ rest)
      rw [spelled, scanQualified, scanQuoted_quote signs qualifier point, Option.bind_some]
      show (scanQuoted quoteMark ((dialect.quote name).toList ++ rest)).map _ = _
      rw [scanQuoted_quote signs name ends]
      rfl

theorem scanRelation_text (relation : Relation) {rest : List Char}
    (ends : rest.head? ≠ some quoteMark) (noPoint : rest.head? ≠ some '.')
    (noAlias : ¬ " AS ".toList <+: rest) :
    scanRelation quoteMark ((relation.text dialect).toList ++ rest) = some (relation, rest) := by
  obtain ⟨⟨schema, table⟩, aliasName⟩ := relation
  cases aliasName with
  | none =>
      have plain : Relation.text dialect ⟨⟨schema, table⟩, none⟩ =
          Ident.text dialect ⟨schema, table⟩ := rfl
      rw [plain, scanRelation, scanQualified_text signs _ ends noPoint, Option.bind_some]
      dsimp only
      split
      case h_1 further => exact absurd ⟨further, rfl⟩ noAlias
      case h_2 => rfl
  | some aliasName =>
      have spelled : (Relation.text dialect ⟨⟨schema, table⟩, some aliasName⟩).toList ++ rest =
          (Ident.text dialect ⟨schema, table⟩).toList ++
            ' ' :: 'A' :: 'S' :: ' ' :: ((dialect.quote aliasName).toList ++ rest) := by
        simp [Relation.text]
      have blank := quoteMark_ne signs (by decide : ' ' ∈ Mark.initials)
        ('A' :: 'S' :: ' ' :: ((dialect.quote aliasName).toList ++ rest))
      rw [spelled, scanRelation, scanQualified_text signs _ blank (by simp), Option.bind_some]
      show (scanQuoted quoteMark ((dialect.quote aliasName).toList ++ rest)).map _ = _
      rw [scanQuoted_quote signs aliasName ends]
      rfl

theorem delimits_of_signs : dialect.Delimits quoteMark where
  names text name rest := by
    rw [signs.quotes]
    exact scanQuoted_eq_some_iff
  distinct name other sameText := by
    have atEnd : ([] : List Char).head? ≠ some quoteMark := by simp
    have scanned := scanQuoted_quote signs name atEnd
    rw [sameText, scanQuoted_quote signs other atEnd] at scanned
    exact (congrArg Prod.fst (Option.some.inj scanned)).symm
  columns renderer isDialect ident rest ends noPoint := by
    rw [Expr.sql_render_identifier, isDialect]
    exact ⟨rfl, scanQualified_text signs ident ends noPoint⟩
  relations renderer isDialect relation rest ends noPoint noAlias := by
    rw [Renderer.sql_writeRelation, isDialect]
    exact ⟨rfl, scanRelation_text signs relation ends noPoint noAlias⟩

end Signs

/-- A quoted name is a token of its own in both dialects. -/
theorem names_delimited : postgres.Delimits '"' ∧ mySql.Delimits '\x60' :=
  ⟨delimits_of_signs signs_postgres, delimits_of_signs signs_mySql⟩

/-- A name with quote characters does not end early. -/
example :
    scanQuoted '"' ((postgres.quote "id\" = 0 --").toList ++ " = 1".toList) =
      some ("id\" = 0 --", " = 1".toList) := by
  decide

end Dialect

end Joinery.Sql
