import Joinery.Proofs.Text.Scanning

/-!
Contract: statements can be read back from their texts and values.

A reader takes the tokens of a statement one by one. It keeps the brackets and
lists that are open, from the inside out, and what it has read since the last
of them was opened. Reading an expression leaves the open ones as they are and
completes that expression, wherever it stands: the alias after an expression
belongs to all of what was completed, and operators are found between the
parentheses that they were written with, so precedence plays no part.

A star in place of arguments is read as an argument list of one star, so the
two are written alike and are identified (`Expr.canonical`).

Owns: the reader, what it reads, and unique readability.

Does not own: how tokens are told apart in a text.
-/

namespace Joinery.Sql

/-! ## What is read -/

namespace Expr

mutual

/-- The expression with every star call as a call with a star as its only
argument. -/
def canonical : Expr → Expr
  | .identifier ident => .identifier ident
  | .wildcard qualifier => .wildcard qualifier
  | .value bound => .value bound
  | .literal sql => .literal sql
  | .binary op left right => .binary op (canonical left) (canonical right)
  | .isNull operand negated => .isNull (canonical operand) negated
  | .inList operand items negated => .inList (canonical operand) (canonicalList items) negated
  | .call name args star =>
      .call name (if star then [.wildcard none] else canonicalList args) false
  | .aliased operand aliasName => .aliased (canonical operand) aliasName
termination_by structural x => x

def canonicalList : List Expr → List Expr
  | [] => []
  | expr :: others => canonical expr :: canonicalList others
termination_by structural x => x

end

theorem canonicalList_eq_map (exprs : List Expr) : canonicalList exprs = exprs.map canonical := by
  induction exprs with
  | nil => rfl
  | cons expr others inductionHypothesis => simp [canonicalList, inductionHypothesis]

mutual

/-- Identified expressions are written alike. -/
theorem tokens_canonical : (expr : Expr) → expr.canonical.tokens = expr.tokens
  | .identifier ident => rfl
  | .wildcard qualifier => rfl
  | .value bound => rfl
  | .literal sql => rfl
  | .binary op left right => by
      simp only [canonical, tokens, tokens_canonical left, tokens_canonical right]
  | .isNull operand negated => by
      simp only [canonical, tokens, tokens_canonical operand]
  | .inList operand items negated => by
      simp only [canonical, tokens, tokens_canonical operand, tokensList_canonicalList items]
  | .call name args true => rfl
  | .call name args false => by
      simp [canonical, tokens, tokensList_canonicalList args]
  | .aliased operand aliasName => by
      simp only [canonical, tokens, tokens_canonical operand]

theorem tokensList_canonicalList : (exprs : List Expr) →
    tokensList (canonicalList exprs) = tokensList exprs
  | [] => rfl
  | expr :: others => by
      simp only [canonicalList, tokensList, tokens_canonical expr,
        tokensFurther_canonicalList others]

theorem tokensFurther_canonicalList : (exprs : List Expr) →
    tokensFurther (canonicalList exprs) = tokensFurther exprs
  | [] => rfl
  | expr :: others => by
      simp only [canonicalList, tokensFurther, tokens_canonical expr,
        tokensFurther_canonicalList others]

end

end Expr

/-! ## The reader -/

namespace Reading

/-- What a list of expressions belongs to. -/
inductive Head where
  | items (operand : Expr) (negated : Bool)
  | args (name : String)
  | clause (clause : Clause)

/-- What is open. -/
inductive Frame where
  /-- A parenthesis whose operand is not complete. -/
  | opened
  /-- A parenthesis with a left operand and an operator. -/
  | operated (op : BinaryOperator) (left : Expr)
  /-- A parenthesis that only has to be closed. -/
  | tested (expr : Expr)
  /-- A list with the expressions before the last comma. -/
  | list (head : Head) (read : List Expr)

/-- What was read since the last frame was opened. -/
inductive Current where
  | nothing
  | qualifier (name : String)
  | complete (expr : Expr)
  | naming (expr : Expr)

def Current.items : Current → List Expr
  | .complete expr => [expr]
  | .nothing => []
  | .qualifier _ => []
  | .naming _ => []

end Reading

open Reading (Frame Head Current)

structure Reading where
  frames : List Frame
  current : Current

namespace Reading

def start : Reading :=
  ⟨[], .nothing⟩

/-- The frames once the current expression is put into its list. -/
def settled : Reading → List Frame
  | ⟨.list head read :: outer, current⟩ => .list head (read ++ current.items) :: outer
  | ⟨frames, _⟩ => frames

def complete (reading : Reading) (expr : Expr) : Reading :=
  ⟨reading.frames, .complete expr⟩

/-- Reads a name, which is an alias after `AS` and a column otherwise. -/
def readName (reading : Reading) (name : String) : Reading :=
  match reading.current with
  | .qualifier qualifier => reading.complete (.identifier ⟨some qualifier, name⟩)
  | .naming expr => reading.complete (.aliased expr name)
  | .nothing => reading.complete (.identifier ⟨none, name⟩)
  | .complete _ => reading

/-- Closes what is open. Of the two parentheses after a list of items the
first closes the list. -/
def close : Reading → Reading
  | ⟨.operated op left :: outer, .complete right⟩ => ⟨outer, .complete (.binary op left right)⟩
  | ⟨.tested expr :: outer, .nothing⟩ => ⟨outer, .complete expr⟩
  | ⟨.list (.items operand negated) read :: outer, current⟩ =>
      ⟨.tested (.inList operand (read ++ current.items) negated) :: outer, .nothing⟩
  | ⟨.list (.args name) read :: outer, current⟩ =>
      ⟨outer, .complete (.call name (read ++ current.items) false)⟩
  | reading => reading

def readMark (reading : Reading) : Mark → Reading
  | .star =>
      match reading.current with
      | .qualifier qualifier => reading.complete (.wildcard (some qualifier))
      | _ => reading.complete (.wildcard none)
  | .point =>
      match reading.current with
      | .complete (.identifier ⟨none, name⟩) => ⟨reading.frames, .qualifier name⟩
      | _ => reading
  | .comma => ⟨reading.settled, .nothing⟩
  | .opening => ⟨.opened :: reading.frames, .nothing⟩
  | .closing => reading.close
  | .naming =>
      match reading.current with
      | .complete expr => ⟨reading.frames, .naming expr⟩
      | _ => reading
  | .operator op =>
      match reading with
      | ⟨.opened :: outer, .complete left⟩ => ⟨.operated op left :: outer, .nothing⟩
      | _ => reading
  | .isNull negated =>
      match reading with
      | ⟨.opened :: outer, .complete operand⟩ =>
          ⟨.tested (.isNull operand negated) :: outer, .nothing⟩
      | _ => reading
  | .isIn negated =>
      match reading with
      | ⟨.opened :: outer, .complete operand⟩ =>
          ⟨.list (.items operand negated) [] :: outer, .nothing⟩
      | _ => reading
  | .clause part => ⟨.list (.clause part) [] :: reading.settled, .nothing⟩

def read (reading : Reading) : Token → Reading
  | .mark fixed => reading.readMark fixed
  | .function name => ⟨.list (.args name) [] :: reading.frames, .nothing⟩
  | .raw sql => reading.complete (.literal sql)
  | .name identifier => reading.readName identifier
  | .value bound => reading.complete (.value bound)

def readAll (reading : Reading) (tokens : List Token) : Reading :=
  tokens.foldl read reading

@[simp]
theorem readAll_nil (reading : Reading) : reading.readAll [] = reading := rfl

@[simp]
theorem readAll_cons (reading : Reading) (token : Token) (others : List Token) :
    reading.readAll (token :: others) = (reading.read token).readAll others := rfl

@[simp]
theorem readAll_append (reading : Reading) (first second : List Token) :
    reading.readAll (first ++ second) = (reading.readAll first).readAll second :=
  List.foldl_append

/-! ## Reading expressions -/

mutual

/-- Whatever is open, the tokens of an expression complete that expression. -/
theorem readAll_tokens : (expr : Expr) → (frames : List Frame) →
    readAll ⟨frames, .nothing⟩ expr.tokens = ⟨frames, .complete expr.canonical⟩
  | .identifier ⟨none, name⟩, frames => rfl
  | .identifier ⟨some qualifier, name⟩, frames => rfl
  | .wildcard none, frames => rfl
  | .wildcard (some qualifier), frames => rfl
  | .value bound, frames => rfl
  | .literal sql, frames => rfl
  | .binary op left right, frames => by
      have first := readAll_tokens left (.opened :: frames)
      have second := readAll_tokens right (.operated op left.canonical :: frames)
      simp only [Expr.tokens, readAll_cons, readAll_append, read, readMark, first, second]
      rfl
  | .isNull operand negated, frames => by
      have first := readAll_tokens operand (.opened :: frames)
      simp only [Expr.tokens, readAll_cons, readAll_append, read, readMark, first]
      rfl
  | .inList operand items negated, frames => by
      have first := readAll_tokens operand (.opened :: frames)
      obtain ⟨before, current, listed, sameItems⟩ :=
        readAll_tokensList items (.items operand.canonical negated) [] frames
      simp only [Expr.tokens, readAll_cons, readAll_append, read, readMark, first, listed]
      simp only [close, sameItems]
      rfl
  | .call name args true, frames => rfl
  | .call name args false, frames => by
      obtain ⟨before, current, listed, sameItems⟩ := readAll_tokensList args (.args name) [] frames
      simp only [Expr.tokens, Bool.false_eq_true, if_false, readAll_cons, readAll_append, read,
        readMark, listed]
      simp only [close, sameItems]
      rfl
  | .aliased operand aliasName, frames => by
      simp only [Expr.tokens, readAll_append, readAll_tokens operand frames]
      rfl

/-- The tokens of expressions with commas between them put the expressions
into the list that is open. -/
theorem readAll_tokensList : (exprs : List Expr) → (head : Head) → (before : List Expr) →
    (outer : List Frame) → ∃ read current,
      readAll ⟨.list head before :: outer, .nothing⟩ (Expr.tokensList exprs) =
        ⟨.list head read :: outer, current⟩ ∧
      read ++ current.items = before ++ Expr.canonicalList exprs
  | [], head, before, outer => ⟨before, .nothing, rfl, rfl⟩
  | expr :: others, head, before, outer => by
      obtain ⟨read, current, listed, sameItems⟩ :=
        readAll_tokensFurther others head before (.complete expr.canonical) outer
      refine ⟨read, current, ?_, ?_⟩
      · rw [Expr.tokensList, readAll_append, readAll_tokens expr, listed]
      · rw [sameItems, List.append_assoc]
        rfl

theorem readAll_tokensFurther : (exprs : List Expr) → (head : Head) → (before : List Expr) →
    (last : Current) → (outer : List Frame) → ∃ read current,
      readAll ⟨.list head before :: outer, last⟩ (Expr.tokensFurther exprs) =
        ⟨.list head read :: outer, current⟩ ∧
      read ++ current.items = before ++ last.items ++ Expr.canonicalList exprs
  | [], head, before, last, outer =>
      ⟨before, last, rfl, by rw [Expr.canonicalList, List.append_nil]⟩
  | expr :: others, head, before, last, outer => by
      obtain ⟨read, current, listed, sameItems⟩ := readAll_tokensFurther others head
        (before ++ last.items) (.complete expr.canonical) outer
      refine ⟨read, current, ?_, ?_⟩
      · -- The comma puts the last expression into the list.
        have atComma : Reading.read ⟨.list head before :: outer, last⟩ (.mark .comma) =
            ⟨.list head (before ++ last.items) :: outer, .nothing⟩ := rfl
        rw [Expr.tokensFurther, readAll_cons, atComma, readAll_append, readAll_tokens expr, listed]
      · rw [sameItems, List.append_assoc]
        rfl

end

/-! ## Reading statements -/

/-- The section of a list that belongs to a clause. -/
def Frame.section? : Frame → Option Section
  | .list (.clause part) read => some ⟨part, read⟩
  | _ => none

/-- The sections read so far, in order. -/
def sections (reading : Reading) : List Section :=
  reading.settled.reverse.filterMap Frame.section?

end Reading

def Section.canonical (part : Section) : Section :=
  { part with items := part.items.map Expr.canonical }

namespace Reading

theorem sections_readAll_section (reading : Reading) (part : Section) :
    (reading.readAll part.tokens).sections = reading.sections ++ [part.canonical] := by
  obtain ⟨before, current, listed, sameItems⟩ :=
    readAll_tokensList part.items (.clause part.clause) [] reading.settled
  have atClause : reading.read (.mark (.clause part.clause)) =
      ⟨.list (.clause part.clause) [] :: reading.settled, .nothing⟩ := rfl
  have settled : (reading.readAll part.tokens).settled =
      .list (.clause part.clause) (part.items.map Expr.canonical) :: reading.settled := by
    rw [Section.tokens, readAll_cons, atClause, listed, Reading.settled, sameItems,
      Expr.canonicalList_eq_map]
    rfl
  rw [sections, settled, List.reverse_cons, List.filterMap_append]
  rfl

theorem sections_readAll (sections : List Section) (reading : Reading) :
    (reading.readAll (sections.flatMap Section.tokens)).sections =
      reading.sections ++ sections.map Section.canonical := by
  induction sections generalizing reading with
  | nil => simp
  | cons part others inductionHypothesis =>
      rw [List.flatMap_cons, readAll_append, inductionHypothesis, sections_readAll_section,
        List.append_assoc]
      rfl

end Reading

/-! ## Statements and their sections -/

def Join.canonical (join : Join) : Join :=
  { join with on := join.on.canonical }

namespace Select

/-- The statement with its star calls as calls with a star as the only
argument. -/
def canonical (select : Select) : Select :=
  { columns := select.columns.map Expr.canonical
    base := select.base
    joins := select.joins.map Join.canonical
    filter := select.filter.map Expr.canonical }

theorem canonical_asExpr (relation : Relation) : relation.asExpr.canonical = relation.asExpr := by
  unfold Relation.asExpr
  cases relation.aliasName <;> rfl

theorem sections_canonical (select : Select) :
    select.canonical.sections = select.sections.map Section.canonical := by
  have ofJoins (joins : List Join) : (joins.map Join.canonical).flatMap Join.sections =
      (joins.flatMap Join.sections).map Section.canonical := by
    simp [List.flatMap_map, List.map_flatMap, Join.sections, Join.canonical, Section.canonical,
      canonical_asExpr]
  obtain ⟨columns, base, joins, filter⟩ := select
  cases base <;> cases filter <;>
    simp [sections, furtherSections, Section.ofOption, canonical, ofJoins, Section.canonical,
      canonical_asExpr]

theorem tokens_canonical (select : Select) : select.canonical.tokens = select.tokens := by
  have ofSection (part : Section) : part.canonical.tokens = part.tokens := by
    rw [Section.tokens, Section.canonical, ← Expr.canonicalList_eq_map,
      Expr.tokensList_canonicalList]
    rfl
  rw [tokens, sections_canonical, List.flatMap_map, tokens]
  simp only [ofSection]

theorem asExpr_inj {relation other : Relation} (same : relation.asExpr = other.asExpr) :
    relation = other := by
  obtain ⟨⟨schema, name⟩, aliasName⟩ := relation
  obtain ⟨⟨schema', name'⟩, aliasName'⟩ := other
  cases aliasName <;> cases aliasName' <;> simp_all [Relation.asExpr]

theorem join_eq_of_sections {join other : Join} (same : join.sections = other.sections) :
    join = other := by
  obtain ⟨kind, relation, on⟩ := join
  obtain ⟨kind', relation', on'⟩ := other
  simp only [Join.sections, List.cons.injEq, Section.mk.injEq, Clause.join.injEq, true_and,
    and_true] at same
  obtain ⟨⟨rfl, sameRelation⟩, rfl⟩ := same
  rw [asExpr_inj sameRelation]

theorem joins_eq_of_sections {joins others : List Join} {filter filter' : Option Expr}
    (same : joins.flatMap Join.sections ++ Section.ofOption .filter filter =
      others.flatMap Join.sections ++ Section.ofOption .filter filter') :
    joins = others ∧ filter = filter' := by
  induction joins generalizing others with
  | nil =>
      cases others with
      | nil =>
          refine ⟨rfl, ?_⟩
          cases filter <;> cases filter' <;> simp_all [Section.ofOption]
      | cons other others => cases filter <;> simp [Section.ofOption, Join.sections] at same
  | cons join joins inductionHypothesis =>
      cases others with
      | nil => cases filter' <;> simp [Section.ofOption, Join.sections] at same
      | cons other others =>
          rw [List.flatMap_cons, List.flatMap_cons, List.append_assoc, List.append_assoc] at same
          obtain ⟨sameFirst, sameRest⟩ := List.append_inj same rfl
          obtain ⟨rfl, sameFilter⟩ := inductionHypothesis sameRest
          rw [join_eq_of_sections sameFirst]
          exact ⟨rfl, sameFilter⟩

/-- A statement is determined by its sections. -/
theorem eq_of_sections {select other : Select} (same : select.sections = other.sections) :
    select = other := by
  obtain ⟨columns, base, joins, filter⟩ := select
  obtain ⟨columns', base', joins', filter'⟩ := other
  simp only [sections, furtherSections, List.cons.injEq, Section.mk.injEq, true_and,
    List.append_assoc] at same
  obtain ⟨rfl, sameFurther⟩ := same
  have sameBase : base = base' ∧ joins.flatMap Join.sections ++ Section.ofOption .filter filter =
      joins'.flatMap Join.sections ++ Section.ofOption .filter filter' := by
    cases base with
    | none =>
        cases base' with
        | none => exact ⟨rfl, sameFurther⟩
        | some relation' =>
            cases joins <;> cases filter <;>
              simp [Section.ofOption, Join.sections] at sameFurther
    | some relation =>
        cases base' with
        | none =>
            cases joins' <;> cases filter' <;>
              simp [Section.ofOption, Join.sections] at sameFurther
        | some relation' =>
            simp only [Option.map_some, Section.ofOption, List.singleton_append, List.cons.injEq,
              Section.mk.injEq, true_and, and_true] at sameFurther
            rw [asExpr_inj sameFurther.1]
            exact ⟨rfl, sameFurther.2⟩
  obtain ⟨rfl, sameRest⟩ := sameBase
  obtain ⟨rfl, rfl⟩ := joins_eq_of_sections sameRest
  rfl

end Select

/-! ## Unique readability -/

theorem Expr.canonical_eq_of_tokens {expr expr' : Expr} (same : expr.tokens = expr'.tokens) :
    expr.canonical = expr'.canonical := by
  have completed :
      (⟨[], .complete expr.canonical⟩ : Reading) = ⟨[], .complete expr'.canonical⟩ := by
    rw [← Reading.readAll_tokens, same, Reading.readAll_tokens]
  injection completed with _ sameCurrent
  injection sameCurrent

theorem Select.canonical_eq_of_tokens {select select' : Select}
    (same : select.tokens = select'.tokens) : select.canonical = select'.canonical := by
  have read (select : Select) :
      (Reading.start.readAll select.tokens).sections = select.canonical.sections := by
    rw [tokens, Reading.sections_readAll, sections_canonical]
    rfl
  apply eq_of_sections
  rw [← read, same, read]

theorem Expr.toSql_canonical (expr : Expr) (dialect : Dialect) :
    expr.canonical.toSql dialect = expr.toSql dialect := by
  simp only [toSql, render_eq, tokens_canonical]

theorem Select.toSql_canonical (select : Select) (dialect : Dialect) :
    select.canonical.toSql dialect = select.toSql dialect := by
  simp only [toSql, render_eq, tokens_canonical]

/-- In both dialects, expressions and statements without raw fragments have
the same text and the same parameters exactly if they are equal, star calls
identified with calls that have a star as their only argument. -/
theorem Dialect.uniquely_readable (dialect : Dialect)
    (known : dialect = .postgres ∨ dialect = .mySql) :
    (∀ expr expr' : Expr, expr.Legible → expr'.Legible →
      (expr.toSql dialect = expr'.toSql dialect ↔ expr.canonical = expr'.canonical)) ∧
    ∀ select select' : Select, select.Legible → select'.Legible →
      (select.toSql dialect = select'.toSql dialect ↔ select.canonical = select'.canonical) := by
  obtain ⟨quoteMark, placeMark, signs⟩ :
      ∃ quoteMark placeMark, dialect.Signs quoteMark placeMark := by
    rcases known with rfl | rfl
    · exact ⟨_, _, signs_postgres⟩
    · exact ⟨_, _, signs_mySql⟩
  constructor
  · intro expr expr' legible legible'
    constructor
    · intro sameSql
      exact Expr.canonical_eq_of_tokens (Expr.tokens_eq_of_toSql signs legible legible' sameSql)
    · intro sameCanonical
      rw [← expr.toSql_canonical, sameCanonical, expr'.toSql_canonical]
  · intro select select' legible legible'
    constructor
    · intro sameSql
      exact Select.canonical_eq_of_tokens
        (Select.tokens_eq_of_toSql signs legible legible' sameSql)
    · intro sameCanonical
      rw [← select.toSql_canonical, sameCanonical, select'.toSql_canonical]

/-- The number of open orders, with a star in place of arguments that are not
written. -/
def starCount : Select where
  columns := [.aliased (.call "COUNT" [.literal "1"] true) "how \"many\""]
  base := some { table := { name := "orders" } }
  joins := []
  filter := some (.binary .eq (.qualified "orders" "status") (.value (.string "open")))

/-- The same with a star as the argument. -/
def listCount : Select where
  columns := [.aliased (.call "COUNT" [.wildcard none] false) "how \"many\""]
  base := starCount.base
  joins := starCount.joins
  filter := starCount.filter

theorem legible_starCount : starCount.Legible where
  columns := by
    have word : IsWord "COUNT" := by decide
    simp [starCount, Expr.Legible, word]
  joins := by simp [starCount]
  filter := by simp [starCount, Expr.Legible, Expr.qualified]

theorem legible_listCount : listCount.Legible where
  columns := by
    have word : IsWord "COUNT" := by decide
    simp [listCount, Expr.Legible, Expr.LegibleList, word]
  joins := by simp [listCount, starCount]
  filter := legible_starCount.filter

theorem counts_uniquely_readable :
    (Dialect.postgres = .postgres ∨ Dialect.postgres = .mySql) ∧
    starCount.Legible ∧ listCount.Legible ∧
    starCount.toSql .postgres = listCount.toSql .postgres ∧
    starCount.canonical = listCount.canonical :=
  ⟨.inl rfl, legible_starCount, legible_listCount, rfl,
    ((Dialect.uniquely_readable .postgres (.inl rfl)).2 starCount listCount legible_starCount
      legible_listCount).1 rfl⟩

end Joinery.Sql
