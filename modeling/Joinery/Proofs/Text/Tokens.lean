import Joinery.Sql.Renderer

/-!
Contract: the text of statements as a sequence of tokens.

A token is a fixed mark, the head of a function call, a raw fragment, a name
or a value. The tokens of a statement depend on nothing but the statement: a
dialect decides only how names are quoted and how the places of values are
marked, and the number of a place is the number of values before it.
Rendering writes the tokens in order and binds their values.

Owns: tokens, their texts, and rendering as the writing of tokens.

Does not own: what can be read back from a text.
-/

namespace Joinery.Sql

/-! ## Tokens -/

/-- What a section of a statement begins with. -/
inductive Clause where
  | select
  | base
  | join (kind : JoinKind)
  | on
  | filter
deriving DecidableEq, Repr

def Clause.text : Clause → String
  | .select => "SELECT "
  | .base => " FROM "
  | .join kind => " " ++ kind.keyword
  | .on => " ON "
  | .filter => " WHERE "

inductive Mark where
  | star
  | point
  | comma
  | opening
  | closing
  | naming
  | operator (op : BinaryOperator)
  | isNull (negated : Bool)
  | isIn (negated : Bool)
  | clause (clause : Clause)
deriving DecidableEq, Repr

def Mark.text : Mark → String
  | .star => "*"
  | .point => "."
  | .comma => ", "
  | .opening => "("
  | .closing => ")"
  | .naming => " AS "
  | .operator op => op.text
  | .isNull negated => if negated then " IS NOT NULL" else " IS NULL"
  | .isIn negated => if negated then " NOT IN (" else " IN ("
  | .clause part => part.text

inductive Token where
  | mark (mark : Mark)
  /-- The name of a function with the parenthesis that opens its arguments. -/
  | function (name : String)
  | raw (sql : String)
  /-- An identifier, a qualifier, a table, a schema or an alias. -/
  | name (name : String)
  | value (value : Value)
deriving Repr

namespace Token

/-- The text of a token when some number of values were bound before it. -/
def text (dialect : Dialect) (number : Nat) : Token → String
  | .mark fixed => fixed.text
  | .function called => called ++ "("
  | .raw sql => sql
  | .name identifier => dialect.quote identifier
  | .value _ => dialect.placeholder number

/-- The values that a token binds. -/
def values : Token → List Value
  | .value bound => [bound]
  | .mark _ => []
  | .function _ => []
  | .raw _ => []
  | .name _ => []

/-- The texts of tokens one by one. -/
def texts (dialect : Dialect) : Nat → List Token → List String
  | _, [] => []
  | number, token :: others =>
      token.text dialect number :: texts dialect (number + token.values.length) others

/-- The texts of those tokens that are values. -/
def placeholders (dialect : Dialect) (number : Nat) (tokens : List Token) : List String :=
  ((tokens.zip (texts dialect number tokens)).filter fun written =>
    !written.1.values.isEmpty).map Prod.snd

/-- The text of the token does not depend on the dialect. -/
def Fixed : Token → Prop
  | .mark _ => True
  | .function _ => True
  | .raw _ => True
  | .name _ => False
  | .value _ => False

variable (dialect : Dialect)

theorem getElem?_texts (number position : Nat) (tokens : List Token) :
    (texts dialect number tokens)[position]? =
      tokens[position]?.map fun token =>
        token.text dialect (number + ((tokens.take position).flatMap values).length) := by
  induction tokens generalizing number position with
  | nil => simp [texts]
  | cons token others inductionHypothesis =>
      cases position with
      | zero => simp [texts]
      | succ position =>
          simp only [texts, List.getElem?_cons_succ, inductionHypothesis, List.take_succ_cons,
            List.flatMap_cons, List.length_append, Nat.add_assoc]

/-- The placeholders are numbered consecutively, in the order of the text. -/
theorem placeholders_eq (number : Nat) (tokens : List Token) :
    placeholders dialect number tokens =
      (List.range (tokens.flatMap values).length).map fun k =>
        dialect.placeholder (number + k) := by
  induction tokens generalizing number with
  | nil => rfl
  | cons token others inductionHypothesis =>
      have rest := inductionHypothesis (number + token.values.length)
      unfold placeholders at rest ⊢
      cases token with
      | value bound =>
          simp only [values, List.length_singleton] at rest
          simp only [texts, List.zip_cons_cons, values, List.isEmpty_cons, Bool.not_false,
            List.filter_cons_of_pos, List.map_cons, text, List.flatMap_cons,
            List.length_append, List.length_singleton, rest]
          rw [Nat.add_comm 1, List.range_succ_eq_map]
          simp [Function.comp_def, Nat.add_comm, Nat.add_left_comm]
      | mark | function | raw | name =>
          simpa [texts, values] using rest

end Token

/-! ## Tokens of expressions -/

/-- The tokens of a qualifier with its point, if there is one. -/
def qualifierTokens : Option String → List Token
  | some qualifier => [.name qualifier, .mark .point]
  | none => []

namespace Expr

mutual

def tokens : Expr → List Token
  | .identifier ident => qualifierTokens ident.qualifier ++ [.name ident.name]
  | .wildcard qualifier => qualifierTokens qualifier ++ [.mark .star]
  | .value bound => [.value bound]
  | .literal sql => [.raw sql]
  | .binary op left right =>
      .mark .opening :: (tokens left ++ .mark (.operator op) :: (tokens right ++ [.mark .closing]))
  | .isNull operand negated =>
      .mark .opening :: (tokens operand ++ [.mark (.isNull negated), .mark .closing])
  | .inList operand items negated =>
      .mark .opening :: (tokens operand ++ .mark (.isIn negated) ::
        (tokensList items ++ [.mark .closing, .mark .closing]))
  | .call name args star =>
      if star then [.function name, .mark .star, .mark .closing]
      else .function name :: (tokensList args ++ [.mark .closing])
  | .aliased operand aliasName => tokens operand ++ [.mark .naming, .name aliasName]
termination_by structural x => x

/-- Expressions with commas between them. -/
def tokensList : List Expr → List Token
  | [] => []
  | expr :: others => tokens expr ++ tokensFurther others
termination_by structural x => x

/-- Expressions, each after a comma. -/
def tokensFurther : List Expr → List Token
  | [] => []
  | expr :: others => .mark .comma :: (tokens expr ++ tokensFurther others)
termination_by structural x => x

end

mutual

/-- The values in an expression, from left to right, without those in the
arguments of star calls. -/
def values : Expr → List Value
  | .identifier _ => []
  | .wildcard _ => []
  | .value bound => [bound]
  | .literal _ => []
  | .binary _ left right => values left ++ values right
  | .isNull operand _ => values operand
  | .inList operand items _ => values operand ++ valuesList items
  | .call _ args star => if star then [] else valuesList args
  | .aliased operand _ => values operand
termination_by structural x => x

def valuesList : List Expr → List Value
  | [] => []
  | expr :: others => values expr ++ valuesList others
termination_by structural x => x

end

theorem valuesList_eq_flatMap (exprs : List Expr) : valuesList exprs = exprs.flatMap values := by
  induction exprs with
  | nil => rfl
  | cons expr others inductionHypothesis => simp [valuesList, inductionHypothesis]

theorem values_qualifierTokens (qualifier : Option String) :
    (qualifierTokens qualifier).flatMap Token.values = [] := by
  cases qualifier <;> rfl

mutual

theorem values_tokens : (expr : Expr) → expr.tokens.flatMap Token.values = expr.values
  | .identifier ident => by
      simp [tokens, values, values_qualifierTokens, Token.values]
  | .wildcard qualifier => by
      simp [tokens, values, values_qualifierTokens, Token.values]
  | .value bound => rfl
  | .literal sql => rfl
  | .binary op left right => by
      simp [tokens, values, values_tokens left, values_tokens right, Token.values]
  | .isNull operand negated => by
      simp [tokens, values, values_tokens operand, Token.values]
  | .inList operand items negated => by
      simp [tokens, values, values_tokens operand, values_tokensList items, Token.values]
  | .call name args true => rfl
  | .call name args false => by
      simp [tokens, values, values_tokensList args, Token.values]
  | .aliased operand aliasName => by
      simp [tokens, values, values_tokens operand, Token.values]

theorem values_tokensList : (exprs : List Expr) →
    (tokensList exprs).flatMap Token.values = valuesList exprs
  | [] => rfl
  | expr :: others => by
      simp [tokensList, valuesList, values_tokens expr, values_tokensFurther others]

theorem values_tokensFurther : (exprs : List Expr) →
    (tokensFurther exprs).flatMap Token.values = valuesList exprs
  | [] => rfl
  | expr :: others => by
      simp [tokensFurther, valuesList, values_tokens expr, values_tokensFurther others,
        Token.values]

end

end Expr

/-! ## Tokens of statements -/

/-- A clause with the expressions that follow it, commas between them. -/
structure Section where
  clause : Clause
  items : List Expr

def Section.tokens (part : Section) : List Token :=
  .mark (.clause part.clause) :: Expr.tokensList part.items

/-- The section of a clause that may be absent. -/
def Section.ofOption (clause : Clause) : Option Expr → List Section
  | some item => [⟨clause, [item]⟩]
  | none => []

/-- The expression that is written as the relation: its table as a name that
its schema qualifies, under its alias. -/
def Relation.asExpr (relation : Relation) : Expr :=
  let table := Expr.identifier ⟨relation.table.schema, relation.table.name⟩
  match relation.aliasName with
  | some aliasName => .aliased table aliasName
  | none => table

def Join.sections (join : Join) : List Section :=
  [⟨.join join.kind, [join.relation.asExpr]⟩, ⟨.on, [join.on]⟩]

namespace Select

variable (select : Select)

/-- The sections after the columns. -/
def furtherSections : List Section :=
  Section.ofOption .base (select.base.map Relation.asExpr) ++
    select.joins.flatMap Join.sections ++ Section.ofOption .filter select.filter

def sections : List Section :=
  ⟨.select, select.columns⟩ :: select.furtherSections

def tokens : List Token :=
  select.sections.flatMap Section.tokens

/-- The values in a statement: those of the columns, then those of the
conditions of joins, then those of the filter. -/
def values : List Value :=
  select.columns.flatMap Expr.values ++ select.joins.flatMap (·.on.values) ++
    select.filter.toList.flatMap Expr.values

theorem values_asExpr (relation : Relation) : relation.asExpr.values = [] := by
  unfold Relation.asExpr
  cases relation.aliasName <;> rfl

theorem values_sectionTokens (part : Section) :
    part.tokens.flatMap Token.values = part.items.flatMap Expr.values := by
  rw [Section.tokens, List.flatMap_cons, Expr.values_tokensList, Expr.valuesList_eq_flatMap]
  rfl

theorem values_tokens : select.tokens.flatMap Token.values = select.values := by
  have ofJoins : (select.joins.flatMap Join.sections).flatMap
      (fun part => part.items.flatMap Expr.values) = select.joins.flatMap (·.on.values) := by
    rw [List.flatMap_assoc]
    simp [Join.sections, values_asExpr]
  have ofOption (clause : Clause) (item : Option Expr) : (Section.ofOption clause item).flatMap
      (fun part => part.items.flatMap Expr.values) = item.toList.flatMap Expr.values := by
    cases item <;> simp [Section.ofOption]
  have ofBase : (select.base.map Relation.asExpr).toList.flatMap Expr.values = [] := by
    cases select.base <;> simp [values_asExpr]
  rw [tokens, List.flatMap_assoc]
  simp only [values_sectionTokens]
  rw [sections, List.flatMap_cons, furtherSections, List.flatMap_append, List.flatMap_append,
    ofOption, ofOption, ofJoins, ofBase, List.nil_append, ← List.append_assoc]
  rfl

end Select

/-! ## Rendering is writing tokens -/

namespace Renderer

/-- Writes a token and binds its value. -/
def add (r : Renderer) : Token → Renderer
  | .mark fixed => r.write fixed.text
  | .function called => r.write (called ++ "(")
  | .raw sql => r.write sql
  | .name identifier => r.writeName identifier
  | .value bound => r.bind bound

def addAll (r : Renderer) (tokens : List Token) : Renderer :=
  tokens.foldl add r

@[simp]
theorem addAll_nil (r : Renderer) : r.addAll [] = r := rfl

@[simp]
theorem addAll_cons (r : Renderer) (token : Token) (others : List Token) :
    r.addAll (token :: others) = (r.add token).addAll others := rfl

@[simp]
theorem addAll_append (r : Renderer) (first second : List Token) :
    r.addAll (first ++ second) = (r.addAll first).addAll second :=
  List.foldl_append

@[simp]
theorem write_write (r : Renderer) (first second : String) :
    (r.write first).write second = r.write (first ++ second) := by
  simp [write, String.append_assoc]

theorem add_eq (r : Renderer) (token : Token) :
    r.add token =
      { r with
        sql := r.sql ++ token.text r.dialect r.params.length
        params := r.params ++ token.values } := by
  cases token <;> simp [add, write, writeName, bind, Token.text, Token.values]

theorem addAll_eq (r : Renderer) (tokens : List Token) :
    r.addAll tokens =
      { r with
        sql := r.sql ++ String.join (Token.texts r.dialect r.params.length tokens)
        params := r.params ++ tokens.flatMap Token.values } := by
  induction tokens generalizing r with
  | nil => simp [Token.texts]
  | cons token others inductionHypothesis =>
      rw [addAll_cons, inductionHypothesis, add_eq]
      simp [Token.texts, String.append_assoc]

theorem writeQualifier_eq (r : Renderer) (qualifier : Option String) :
    r.writeQualifier qualifier = r.addAll (qualifierTokens qualifier) := by
  cases qualifier <;> rfl

theorem writeRelation_eq (r : Renderer) (relation : Relation) :
    r.writeRelation relation = r.addAll relation.asExpr.tokens := by
  unfold writeRelation writeTable Relation.asExpr
  rw [writeQualifier_eq]
  cases relation.aliasName <;> simp [Expr.tokens, add, Mark.text]

end Renderer

namespace Expr

mutual

theorem render_eq : (expr : Expr) → (r : Renderer) → expr.render r = r.addAll expr.tokens
  | .identifier ident, r => by
      simp [render, tokens, Renderer.writeQualifier_eq, Renderer.add]
  | .wildcard qualifier, r => by
      simp [render, tokens, Renderer.writeQualifier_eq, Renderer.add, Mark.text]
  | .value bound, r => rfl
  | .literal sql, r => rfl
  | .binary op left right, r => by
      simp [render, tokens, render_eq left, render_eq right, Renderer.add, Mark.text]
  | .isNull operand negated, r => by
      have closed : (if negated then " IS NOT NULL)" else " IS NULL)") =
          (Mark.isNull negated).text ++ Mark.closing.text := by
        cases negated <;> rfl
      rw [render, closed, render_eq operand, ← Renderer.write_write, tokens,
        Renderer.addAll_cons, Renderer.addAll_append]
      rfl
  | .inList operand items negated, r => by
      have closed : "))" = Mark.closing.text ++ Mark.closing.text := rfl
      rw [render, closed, render_eq operand, renderList_eq items, ← Renderer.write_write,
        tokens, Renderer.addAll_cons, Renderer.addAll_append, Renderer.addAll_cons,
        Renderer.addAll_append]
      rfl
  | .call name args true, r => by
      simp [render, tokens, Renderer.add, Mark.text]
  | .call name args false, r => by
      simp [render, tokens, renderList_eq args, Renderer.add, Mark.text]
  | .aliased operand aliasName, r => by
      simp [render, tokens, render_eq operand, Renderer.add, Mark.text]

theorem renderList_eq : (exprs : List Expr) → (r : Renderer) →
    renderList exprs r = r.addAll (tokensList exprs)
  | [], r => rfl
  | expr :: others, r => by
      simp [renderList, tokensList, render_eq expr, renderFurther_eq others]

theorem renderFurther_eq : (exprs : List Expr) → (r : Renderer) →
    renderFurther exprs r = r.addAll (tokensFurther exprs)
  | [], r => rfl
  | expr :: others, r => by
      simp [renderFurther, tokensFurther, render_eq expr, renderFurther_eq others, Renderer.add,
        Mark.text]

end

end Expr

theorem Join.render_eq (join : Join) (r : Renderer) :
    join.render (r.write " ") = r.addAll (join.sections.flatMap Section.tokens) := by
  simp [Join.render, Join.sections, Section.tokens, Expr.tokensList, Expr.tokensFurther,
    Renderer.writeRelation_eq, Expr.render_eq, Renderer.add, Mark.text, Clause.text]

namespace Select

theorem renderJoins_eq (joins : List Join) (r : Renderer) :
    joins.foldl (fun r join => join.render (r.write " ")) r =
      r.addAll ((joins.flatMap Join.sections).flatMap Section.tokens) := by
  induction joins generalizing r with
  | nil => rfl
  | cons join others inductionHypothesis =>
      rw [List.foldl_cons, Join.render_eq, inductionHypothesis, List.flatMap_cons,
        List.flatMap_append, Renderer.addAll_append]

theorem render_eq (select : Select) (r : Renderer) :
    select.render r = r.addAll select.tokens := by
  have single (clause : Clause) (item : Expr) (r : Renderer) :
      r.addAll (Section.tokens ⟨clause, [item]⟩) = (r.write clause.text).addAll item.tokens := by
    simp [Section.tokens, Expr.tokensList, Expr.tokensFurther, Renderer.add, Mark.text]
  have ofColumns (columns : List Expr) : Expr.renderList columns (r.write "SELECT ") =
      r.addAll (Section.tokens ⟨.select, columns⟩) := by
    rw [Expr.renderList_eq]
    rfl
  obtain ⟨columns, base, joins, filter⟩ := select
  cases base <;> cases filter <;>
    simp [render, ofColumns, renderJoins_eq, Renderer.writeRelation_eq, Expr.render_eq, tokens,
      sections, furtherSections, Section.ofOption, single, Clause.text]

end Select

/-! ## What rendering writes -/

/-- Tokens and their values are written after what is there already. The text
of each token is determined by the token, by the dialect, and by the number of
values before it. -/
structure Renderer.Written (before : Renderer) (tokens : List Token) (values : List Value)
    (after : Renderer) : Prop where
  sql : after.sql =
    before.sql ++ String.join (Token.texts before.dialect before.params.length tokens)
  params : after.params = before.params ++ values
  bound : tokens.flatMap Token.values = values
  placed (position : Nat) :
    (Token.texts before.dialect before.params.length tokens)[position]? =
      tokens[position]?.map fun token => token.text before.dialect
        (before.params.length + ((tokens.take position).flatMap Token.values).length)
  numbered : Token.placeholders before.dialect before.params.length tokens =
    (List.range values.length).map fun k => before.dialect.placeholder (before.params.length + k)

theorem Renderer.written_addAll (r : Renderer) {tokens : List Token} {values : List Value}
    (bound : tokens.flatMap Token.values = values) :
    r.Written tokens values (r.addAll tokens) where
  sql := by rw [addAll_eq]
  params := by rw [addAll_eq, bound]
  bound := bound
  placed position := Token.getElem?_texts _ _ _ _
  numbered := by rw [Token.placeholders_eq, bound]

/-- The two dialects write the same tokens and bind the same values. Their
texts differ only in how names are quoted and places are marked. -/
structure Token.InBothDialects (tokens : List Token) (values : List Value)
    (toSql : Dialect → String × List Value) : Prop where
  postgres : toSql .postgres = (String.join (texts .postgres 0 tokens), values)
  mySql : toSql .mySql = (String.join (texts .mySql 0 tokens), values)
  alike (position : Nat) (token : Token) :
    tokens[position]? = some token → token.Fixed →
      (texts .postgres 0 tokens)[position]? = (texts .mySql 0 tokens)[position]?
  numbered : placeholders .postgres 0 tokens =
    (List.range values.length).map fun k => "$" ++ toString (k + 1)
  unnumbered : placeholders .mySql 0 tokens = List.replicate values.length "?"

theorem Token.inBothDialects {tokens : List Token} {values : List Value}
    {toSql : Dialect → String × List Value}
    (written : ∀ dialect, toSql dialect = (String.join (texts dialect 0 tokens), values))
    (bound : tokens.flatMap Token.values = values) : InBothDialects tokens values toSql where
  postgres := written _
  mySql := written _
  alike position token atPosition fixed := by
    rw [getElem?_texts, getElem?_texts, atPosition]
    cases token with
    | mark | function | raw => rfl
    | name | value => cases fixed
  numbered := by
    rw [placeholders_eq, bound]
    simp [Dialect.postgres]
  unnumbered := by
    rw [placeholders_eq, bound]
    simp [Dialect.mySql, List.map_const']

/-- Whatever was written before and in every dialect, rendering an expression
or a statement appends the texts of its tokens, each place numbered by the
values before it, and binds its values in the order of the text. -/
theorem Renderer.render_written (r : Renderer) :
    (∀ expr : Expr, r.Written expr.tokens expr.values (expr.render r)) ∧
    (∀ select : Select, r.Written select.tokens select.values (select.render r)) ∧
    (∀ expr : Expr, Token.InBothDialects expr.tokens expr.values expr.toSql) ∧
    ∀ select : Select, Token.InBothDialects select.tokens select.values select.toSql := by
  refine ⟨?_, ?_, ?_, ?_⟩
  · intro expr
    rw [expr.render_eq]
    exact r.written_addAll expr.values_tokens
  · intro select
    rw [select.render_eq]
    exact r.written_addAll select.values_tokens
  · intro expr
    refine Token.inBothDialects (fun dialect => ?_) expr.values_tokens
    simp [Expr.toSql, Expr.render_eq, Renderer.addAll_eq, Expr.values_tokens]
  · intro select
    refine Token.inBothDialects (fun dialect => ?_) select.values_tokens
    simp [Select.toSql, Select.render_eq, Renderer.addAll_eq, Select.values_tokens]

end Joinery.Sql
