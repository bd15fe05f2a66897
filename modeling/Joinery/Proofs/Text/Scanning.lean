import Joinery.Proofs.Text.Quoting
import Joinery.Proofs.Text.Tokens
import Mathlib.Data.List.Chain

/-!
Contract: a text and its values determine the tokens they were written from.

Each kind of token begins with characters of its own, so the first character
of a text tells what its first token is. No mark is the beginning of another,
a function name ends at its parenthesis, a quoted name at the quote character
that stands alone, and the place of a value is known from the number of values
before it. Tokens can therefore be read off one after the other, provided that
no name follows another directly and that raw fragments are absent.

The word that begins a statement could also begin a function name, so it is
not among these tokens; it stands in front of every statement.

Owns: which tokens can be told apart in a text, and that those of expressions
and statements can.

Does not own: the expression that tokens stand for.
-/

namespace Joinery.Sql

/-! ## Marks -/

namespace Mark

def all : List Mark :=
  [.star, .point, .comma, .opening, .closing, .naming, .isNull false, .isNull true, .isIn false,
    .isIn true, .operator .eq, .operator .notEq, .operator .lt, .operator .ltEq, .operator .gt,
    .operator .gtEq, .operator .like, .operator .and, .operator .or, .clause .select,
    .clause .base, .clause (.join .inner), .clause (.join .left), .clause (.join .right),
    .clause (.join .full), .clause .on, .clause .filter]

theorem mem_all (mark : Mark) : mark ∈ all := by
  unfold all
  cases mark with
  | star | point | comma | opening | closing | naming => decide
  | operator op => cases op <;> decide
  | isNull negated => cases negated <;> decide
  | isIn negated => cases negated <;> decide
  | clause part =>
      cases part with
      | join kind => cases kind <;> decide
      | select | base | on | filter => decide

/-- The text of no mark begins with that of another. -/
theorem eq_of_isPrefix {mark other : Mark}
    (begins : mark.text.toList <+: other.text.toList) : mark = other := by
  have prefixFree : ∀ mark ∈ all, ∀ other ∈ all,
      mark.text.toList <+: other.text.toList → mark = other := by
    decide +kernel
  exact prefixFree mark mark.mem_all other other.mem_all begins

theorem append_inj {mark other : Mark} {rest rest' : List Char}
    (sameText : mark.text.toList ++ rest = other.text.toList ++ rest') :
    mark = other ∧ rest = rest' := by
  have sameMark : mark = other := by
    have first : mark.text.toList <+: other.text.toList ++ rest' := ⟨rest, sameText⟩
    have second : other.text.toList <+: other.text.toList ++ rest' := List.prefix_append _ _
    rcases List.prefix_or_prefix_of_prefix first second with begins | begins
    · exact eq_of_isPrefix begins
    · exact (eq_of_isPrefix begins).symm
  subst sameMark
  exact ⟨rfl, List.append_cancel_left sameText⟩

/-- The characters that marks within a statement begin with. -/
def initials : List Char :=
  ['(', ')', '*', '.', ',', ' ']

theorem head_mem_initials {mark : Mark} (within : mark ≠ .clause .select) :
    ∃ c ∈ initials, mark.text.toList.head? = some c := by
  have known : ∀ mark ∈ all, mark ≠ .clause .select →
      mark.text.toList.head?.any initials.contains = true := by
    decide +kernel
  obtain ⟨c, isHead, isInitial⟩ :=
    (Option.any_eq_true _ _).1 (known mark mark.mem_all within)
  exact ⟨c, List.contains_iff_mem.1 isInitial, isHead⟩

end Mark

/-! ## Words -/

def IsWordChar (c : Char) : Prop :=
  c.isAlphanum = true ∨ c = '_'

instance : DecidablePred IsWordChar := fun _ => inferInstanceAs (Decidable (_ ∨ _))

/-- Not empty, and all of ASCII letters, digits and underscores. -/
def IsWord (name : String) : Prop :=
  name ≠ "" ∧ ∀ c ∈ name.toList, IsWordChar c

-- Only the characters of the name are tried.
instance : DecidablePred IsWord := fun name =>
  @instDecidableAnd _ _ inferInstance (List.decidableBAll IsWordChar name.toList)

theorem not_isWordChar_of_mem_initials {c : Char} (isInitial : c ∈ Mark.initials) :
    ¬ IsWordChar c := by
  have known : Mark.initials.all (fun c => !decide (IsWordChar c)) = true := by
    decide
  simpa using List.all_eq_true.1 known c isInitial

/-- A word ends at the parenthesis that follows it. -/
theorem IsWord.append_inj {name name' : String} (word : IsWord name) (word' : IsWord name')
    {rest rest' : List Char}
    (sameText : (name ++ "(").toList ++ rest = (name' ++ "(").toList ++ rest') :
    name = name' ∧ rest = rest' := by
  have upTo (name : String) (word : IsWord name) (rest : List Char) :
      ((name ++ "(").toList ++ rest).takeWhile (fun c => IsWordChar c) = name.toList := by
    have all : ∀ c ∈ name.toList, decide (IsWordChar c) = true := by
      simpa using word.2
    have stops : decide (IsWordChar '(') = false := by
      decide
    have parenthesis : "(".toList = ['('] := rfl
    rw [String.toList_append, parenthesis, List.append_assoc,
      List.takeWhile_append_of_pos all, List.singleton_append,
      List.takeWhile_cons_of_neg (by simp [stops]), List.append_nil]
  have sameName : name = name' := by
    rw [← String.toList_inj, ← upTo name word rest, ← upTo name' word' rest', sameText]
  subst sameName
  exact ⟨rfl, List.append_cancel_left sameText⟩

/-! ## Dialects whose tokens can be told apart -/

/-- Names are quoted by one character, and all places begin with another.
Neither begins a mark or a word. -/
structure Dialect.Signs (dialect : Dialect) (quoteMark placeMark : Char) : Prop where
  quotes (name : String) : dialect.quote name = Dialect.quoteWith quoteMark name
  places (number : Nat) : (dialect.placeholder number).toList.head? = some placeMark
  differ : placeMark ≠ quoteMark
  notInitial : quoteMark ∉ Mark.initials ∧ placeMark ∉ Mark.initials
  notInWords : ¬ IsWordChar quoteMark ∧ ¬ IsWordChar placeMark

theorem Dialect.signs_postgres : Dialect.postgres.Signs '"' '$' where
  quotes _ := rfl
  places number := by
    rw [Dialect.postgres, String.toList_append]
    rfl
  differ := by decide
  notInitial := by decide
  notInWords := by decide

theorem Dialect.signs_mySql : Dialect.mySql.Signs '\x60' '?' where
  quotes _ := rfl
  places _ := by
    show "?".toList.head? = some '?'
    rfl
  differ := by decide
  notInitial := by decide
  notInWords := by decide

namespace Token

inductive Kind where
  | mark
  | function
  | raw
  | name
  | value
deriving DecidableEq

def kind : Token → Kind
  | .mark _ => .mark
  | .function _ => .function
  | .raw _ => .raw
  | .name _ => .name
  | .value _ => .value

/-- The kind of the token that begins with a character. -/
def kindAt (quoteMark placeMark c : Char) : Kind :=
  if c = quoteMark then .name
  else if c = placeMark then .value
  else if c ∈ Mark.initials then .mark
  else .function

/-- The token can be told from others by its text. -/
def Legible : Token → Prop
  | .mark fixed => fixed ≠ .clause .select
  | .function called => IsWord called
  | .raw _ => False
  | .name _ => True
  | .value _ => True

/-- Every token can be told from others, and none is a name after a name. -/
structure Separate (tokens : List Token) : Prop where
  legible : ∀ token ∈ tokens, token.Legible
  apart : tokens.IsChain fun token next => ¬ (token.kind = .name ∧ next.kind = .name)

namespace Separate

variable {token : Token} {tokens others : List Token}

theorem tail (separate : Separate (token :: tokens)) : Separate tokens where
  legible next member := separate.legible next (List.mem_cons_of_mem _ member)
  apart := separate.apart.tail

theorem nil : Separate [] where
  legible := by simp
  apart := .nil

/-- A token that is no name may stand before any others. -/
theorem cons (token : Token) (legible : token.Legible) (noName : token.kind ≠ .name)
    (separate : Separate tokens) : Separate (token :: tokens) where
  legible next member := by
    rcases List.mem_cons.1 member with rfl | later
    · exact legible
    · exact separate.legible next later
  apart := separate.apart.cons fun _ _ names => noName names.1

/-- A token that is no name may stand between any others. -/
theorem append_cons (separate : Separate tokens) (token : Token) (legible : token.Legible)
    (noName : token.kind ≠ .name) (further : Separate others) :
    Separate (tokens ++ token :: others) where
  legible next member := by
    rcases List.mem_append.1 member with earlier | later
    · exact separate.legible next earlier
    · exact (further.cons token legible noName).legible next later
  apart := by
    refine separate.apart.append (further.cons token legible noName).apart ?_
    intro _ _ next isNext names
    obtain rfl : token = next := Option.some.inj isNext
    exact noName names.2

theorem name (identifier : String) : Separate [.name identifier] where
  legible := by simp [Legible]
  apart := .singleton _

end Separate

section Signs

variable {dialect : Dialect} {quoteMark placeMark : Char}
  (signs : dialect.Signs quoteMark placeMark)
include signs

theorem head_text {token : Token} (legible : token.Legible) (number : Nat) :
    ∃ c, (token.text dialect number).toList.head? = some c ∧
      kindAt quoteMark placeMark c = token.kind := by
  cases token with
  | mark fixed =>
      obtain ⟨c, isInitial, isHead⟩ := Mark.head_mem_initials legible
      have notQuote : c ≠ quoteMark := fun same => signs.notInitial.1 (same ▸ isInitial)
      have notPlace : c ≠ placeMark := fun same => signs.notInitial.2 (same ▸ isInitial)
      exact ⟨c, isHead, by simp [kindAt, notQuote, notPlace, isInitial, kind]⟩
  | function called =>
      obtain ⟨notEmpty, word⟩ := legible
      cases chars : called.toList with
      | nil => exact absurd (String.toList_eq_nil_iff.1 chars) notEmpty
      | cons c rest =>
          have inWord : IsWordChar c := word c (by simp [chars])
          have notQuote : c ≠ quoteMark := fun same => signs.notInWords.1 (same ▸ inWord)
          have notPlace : c ≠ placeMark := fun same => signs.notInWords.2 (same ▸ inWord)
          have notInitial : c ∉ Mark.initials :=
            fun isInitial => not_isWordChar_of_mem_initials isInitial inWord
          exact ⟨c, by simp [text, chars],
            by simp [kindAt, notQuote, notPlace, notInitial, kind]⟩
  | raw sql => exact legible.elim
  | name identifier =>
      refine ⟨quoteMark, ?_, by simp [kindAt, kind]⟩
      rw [text, signs.quotes, Dialect.toList_quoteWith]
      rfl
  | value bound =>
      exact ⟨placeMark, signs.places number, by simp [kindAt, signs.differ, kind]⟩

/-- What follows a name does not begin with a quote character. -/
theorem head_texts_ne_of_name {token : Token} {others : List Token}
    (separate : Separate (token :: others)) (isName : token.kind = .name) (number : Nat) :
    (String.join (texts dialect number others)).toList.head? ≠ some quoteMark := by
  cases others with
  | nil => simp [texts]
  | cons next others =>
      obtain ⟨c, isHead, ofKind⟩ := head_text signs (separate.legible next (by simp)) number
      have other : c ≠ quoteMark := by
        rintro rfl
        have nextIsName : next.kind = .name := by
          rw [← ofKind, kindAt, if_pos rfl]
        exact separate.apart.rel ⟨isName, nextIsName⟩
      simp [texts, List.head?_append, isHead, other]

/-- The first token of a text is determined by the text, up to the value if it
is one, and so is the text after it. -/
theorem text_append_inj {token token' : Token} (legible : token.Legible)
    (legible' : token'.Legible) {number : Nat} {rest rest' : List Char}
    (ends : token.kind = .name → rest.head? ≠ some quoteMark)
    (ends' : token'.kind = .name → rest'.head? ≠ some quoteMark)
    (sameText : (token.text dialect number).toList ++ rest =
      (token'.text dialect number).toList ++ rest') :
    (token = token' ∨ token.kind = .value ∧ token'.kind = .value) ∧ rest = rest' := by
  have sameKind : token.kind = token'.kind := by
    obtain ⟨c, isHead, ofKind⟩ := head_text signs legible number
    obtain ⟨c', isHead', ofKind'⟩ := head_text signs legible' number
    have sameHead := congrArg List.head? sameText
    rw [List.head?_append, List.head?_append, isHead, isHead'] at sameHead
    obtain rfl : c = c' := by simpa using sameHead
    rw [← ofKind, ← ofKind']
  cases token with
  | mark fixed =>
      cases token' with
      | mark fixed' =>
          obtain ⟨rfl, sameRest⟩ := Mark.append_inj sameText
          exact ⟨.inl rfl, sameRest⟩
      | function | raw | name | value => cases sameKind
  | function called =>
      cases token' with
      | function called' =>
          obtain ⟨rfl, sameRest⟩ := IsWord.append_inj legible legible' sameText
          exact ⟨.inl rfl, sameRest⟩
      | mark | raw | name | value => cases sameKind
  | raw sql => exact legible.elim
  | name identifier =>
      cases token' with
      | name identifier' =>
          rw [text, text, signs.quotes, signs.quotes] at sameText
          have scanned := congrArg (Dialect.scanQuoted quoteMark) sameText
          rw [Dialect.scanQuoted_quoteWith identifier (ends rfl),
            Dialect.scanQuoted_quoteWith identifier' (ends' rfl)] at scanned
          simp only [Option.some.injEq, Prod.mk.injEq] at scanned
          exact ⟨.inl (congrArg Token.name scanned.1), scanned.2⟩
      | mark | function | raw | value => cases sameKind
  | value bound =>
      cases token' with
      | value bound' => exact ⟨.inr ⟨rfl, rfl⟩, List.append_cancel_left sameText⟩
      | mark | function | raw | name => cases sameKind

omit signs in
theorem values_append_inj {token token' : Token}
    (sameToken : token = token' ∨ token.kind = .value ∧ token'.kind = .value)
    {rest rest' : List Value} (sameValues : token.values ++ rest = token'.values ++ rest') :
    token = token' ∧ rest = rest' := by
  rcases sameToken with rfl | ⟨isValue, isValue'⟩
  · exact ⟨rfl, List.append_cancel_left sameValues⟩
  · cases token with
    | value bound =>
        cases token' with
        | value bound' =>
            obtain ⟨rfl, sameRest⟩ := List.cons.inj sameValues
            exact ⟨rfl, sameRest⟩
        | mark | function | raw | name => cases isValue'
    | mark | function | raw | name => cases isValue

/-- Tokens are determined by their texts and values. -/
theorem eq_of_texts {tokens tokens' : List Token} (separate : Separate tokens)
    (separate' : Separate tokens') (number : Nat)
    (sameText : String.join (texts dialect number tokens) =
      String.join (texts dialect number tokens'))
    (sameValues : tokens.flatMap values = tokens'.flatMap values) : tokens = tokens' := by
  have notEmpty {token : Token} (legible : token.Legible) (number : Nat) (rest : String) :
      token.text dialect number ++ rest ≠ "" := by
    obtain ⟨c, isHead, -⟩ := head_text signs legible number
    intro isEmpty
    have noHead := congrArg (fun text => text.toList.head?) isEmpty
    simp [List.head?_append, isHead] at noHead
  induction tokens generalizing tokens' number with
  | nil =>
      cases tokens' with
      | nil => rfl
      | cons token' others' =>
          have legible' := separate'.legible token' List.mem_cons_self
          rw [texts, texts, String.join_nil, String.join_cons] at sameText
          exact absurd sameText.symm (notEmpty legible' number _)
  | cons token others inductionHypothesis =>
      have legible := separate.legible token List.mem_cons_self
      cases tokens' with
      | nil =>
          rw [texts, texts, String.join_nil, String.join_cons] at sameText
          exact absurd sameText (notEmpty legible number _)
      | cons token' others' =>
          have legible' := separate'.legible token' List.mem_cons_self
          have sameChars := congrArg String.toList sameText
          rw [texts, texts, String.join_cons, String.join_cons, String.toList_append,
            String.toList_append] at sameChars
          rw [List.flatMap_cons, List.flatMap_cons] at sameValues
          obtain ⟨sameToken, sameRest⟩ := text_append_inj signs legible legible'
            (head_texts_ne_of_name signs separate · _) (head_texts_ne_of_name signs separate' · _)
            sameChars
          obtain ⟨rfl, sameRestValues⟩ := values_append_inj sameToken sameValues
          rw [inductionHypothesis separate.tail separate'.tail _
            (String.toList_inj.1 sameRest) sameRestValues]

end Signs

end Token

/-! ## Tokens of expressions -/

namespace Expr

mutual

/-- No raw fragment, and function names that are words. The arguments of star
calls are not written and do not matter. -/
def Legible : Expr → Prop
  | .identifier _ => True
  | .wildcard _ => True
  | .value _ => True
  | .literal _ => False
  | .binary _ left right => Legible left ∧ Legible right
  | .isNull operand _ => Legible operand
  | .inList operand items _ => Legible operand ∧ LegibleList items
  | .call name args star => IsWord name ∧ (star = false → LegibleList args)
  | .aliased operand _ => Legible operand
termination_by structural x => x

def LegibleList : List Expr → Prop
  | [] => True
  | expr :: others => Legible expr ∧ LegibleList others
termination_by structural x => x

end

open Token (Separate)

theorem legibleList_iff {exprs : List Expr} : LegibleList exprs ↔ ∀ expr ∈ exprs, expr.Legible := by
  induction exprs with
  | nil => simp [LegibleList]
  | cons expr others inductionHypothesis => simp [LegibleList, inductionHypothesis]

theorem separate_qualifierTokens (qualifier : Option String) {tokens : List Token}
    (separate : Separate tokens) : Separate (qualifierTokens qualifier ++ tokens) := by
  cases qualifier with
  | none => exact separate
  | some name => exact (Separate.name name).append_cons (.mark .point) nofun nofun separate

theorem separate_closing : Separate [.mark .closing] :=
  Separate.nil.cons (.mark .closing) nofun nofun

mutual

theorem separate_tokens : (expr : Expr) → expr.Legible → Separate expr.tokens
  | .identifier ident, _ => separate_qualifierTokens ident.qualifier (.name ident.name)
  | .wildcard qualifier, _ =>
      separate_qualifierTokens qualifier (Separate.nil.cons (.mark .star) nofun nofun)
  | .value bound, _ => Separate.nil.cons (.value bound) trivial nofun
  | .binary op left right, ⟨legibleLeft, legibleRight⟩ => by
      have closed := (separate_tokens right legibleRight).append_cons (.mark .closing) nofun nofun
        .nil
      have operated := (separate_tokens left legibleLeft).append_cons (.mark (.operator op)) nofun
        nofun closed
      exact operated.cons (.mark .opening) nofun nofun
  | .isNull operand negated, legible => by
      have tested := (separate_tokens operand legible).append_cons (.mark (.isNull negated)) nofun
        nofun separate_closing
      exact tested.cons (.mark .opening) nofun nofun
  | .inList operand items negated, ⟨legible, legibleItems⟩ => by
      have closed := (separate_tokensList items legibleItems).append_cons (.mark .closing) nofun
        nofun separate_closing
      have tested := (separate_tokens operand legible).append_cons (.mark (.isIn negated)) nofun
        nofun closed
      exact tested.cons (.mark .opening) nofun nofun
  | .call name args true, ⟨word, _⟩ => by
      have marks := separate_closing.cons (.mark .star) nofun nofun
      exact marks.cons (.function name) word nofun
  | .call name args false, ⟨word, legible⟩ => by
      have closed := (separate_tokensList args (legible rfl)).append_cons (.mark .closing) nofun
        nofun .nil
      exact closed.cons (.function name) word nofun
  | .aliased operand aliasName, legible =>
      (separate_tokens operand legible).append_cons (.mark .naming) nofun nofun (.name aliasName)

theorem separate_tokensList : (exprs : List Expr) → LegibleList exprs →
    Separate (tokensList exprs)
  | [], _ => .nil
  | expr :: others, ⟨legible, legibleOthers⟩ =>
      separate_tokensFurther others legibleOthers (separate_tokens expr legible)

theorem separate_tokensFurther : (exprs : List Expr) → LegibleList exprs →
    {tokens : List Token} → Separate tokens → Separate (tokens ++ tokensFurther exprs)
  | [], _, tokens, separate => by
      rw [tokensFurther, List.append_nil]
      exact separate
  | expr :: others, ⟨legible, legibleOthers⟩, _, separate =>
      separate.append_cons (.mark .comma) nofun nofun
        (separate_tokensFurther others legibleOthers (separate_tokens expr legible))

end

end Expr

/-! ## Tokens of statements -/

namespace Select

open Token (Separate)

structure Legible (select : Select) : Prop where
  columns : ∀ expr ∈ select.columns, expr.Legible
  joins : ∀ join ∈ select.joins, join.on.Legible
  filter : ∀ expr ∈ select.filter, expr.Legible

/-- The tokens after the word that begins a statement. -/
def furtherTokens (select : Select) : List Token :=
  Expr.tokensList select.columns ++ select.furtherSections.flatMap Section.tokens

theorem tokens_eq (select : Select) :
    select.tokens = .mark (.clause .select) :: select.furtherTokens := rfl

theorem legible_asExpr (relation : Relation) : relation.asExpr.Legible := by
  unfold Relation.asExpr
  cases relation.aliasName <;> trivial

theorem separate_append_sections {sections : List Section} {tokens : List Token}
    (separate : Separate tokens)
    (legible : ∀ part ∈ sections, part.clause ≠ .select ∧ ∀ item ∈ part.items, item.Legible) :
    Separate (tokens ++ sections.flatMap Section.tokens) := by
  induction sections generalizing tokens with
  | nil =>
      rw [List.flatMap_nil, List.append_nil]
      exact separate
  | cons part others inductionHypothesis =>
      obtain ⟨within, legibleItems⟩ := legible part List.mem_cons_self
      have items := Expr.separate_tokensList part.items (Expr.legibleList_iff.2 legibleItems)
      have first : Separate (tokens ++ part.tokens) :=
        separate.append_cons (.mark (.clause part.clause)) (by simpa [Token.Legible] using within)
          nofun items
      rw [List.flatMap_cons, ← List.append_assoc]
      exact inductionHypothesis first fun part member =>
        legible part (List.mem_cons_of_mem _ member)

theorem separate_furtherTokens {select : Select} (legible : select.Legible) :
    Separate select.furtherTokens := by
  apply separate_append_sections
  · exact Expr.separate_tokensList _ (Expr.legibleList_iff.2 legible.columns)
  · intro part member
    simp only [furtherSections, List.mem_append, List.mem_flatMap] at member
    rcases member with (isBase | ⟨join, isJoin, isPart⟩) | isFilter
    · cases base : select.base with
      | none =>
          rw [base] at isBase
          cases isBase
      | some relation =>
          rw [base] at isBase
          obtain rfl := List.mem_singleton.1 isBase
          exact ⟨by simp, by simp [legible_asExpr]⟩
    · rcases List.mem_pair.1 isPart with rfl | rfl
      · exact ⟨by simp, by simp [legible_asExpr]⟩
      · exact ⟨by simp, by simp [legible.joins join isJoin]⟩
    · cases filter : select.filter with
      | none =>
          rw [filter] at isFilter
          cases isFilter
      | some condition =>
          rw [filter] at isFilter
          obtain rfl := List.mem_singleton.1 isFilter
          exact ⟨by simp, by simp [legible.filter condition filter]⟩

end Select

/-! ## Texts and tokens -/

section Signs

variable {dialect : Dialect} {quoteMark placeMark : Char}
  (signs : dialect.Signs quoteMark placeMark)
include signs

theorem Expr.tokens_eq_of_toSql {expr expr' : Expr} (legible : expr.Legible)
    (legible' : expr'.Legible) (sameSql : expr.toSql dialect = expr'.toSql dialect) :
    expr.tokens = expr'.tokens := by
  simp only [toSql, render_eq, Renderer.addAll_eq, List.nil_append, String.empty_append,
    Prod.mk.injEq] at sameSql
  exact Token.eq_of_texts signs (separate_tokens expr legible) (separate_tokens expr' legible') _
    sameSql.1 sameSql.2

theorem Select.tokens_eq_of_toSql {select select' : Select} (legible : select.Legible)
    (legible' : select'.Legible) (sameSql : select.toSql dialect = select'.toSql dialect) :
    select.tokens = select'.tokens := by
  simp only [toSql, render_eq, Renderer.addAll_eq, List.nil_append, String.empty_append,
    Prod.mk.injEq, tokens_eq, Token.texts, String.join_cons, List.flatMap_cons] at sameSql
  rw [tokens_eq, tokens_eq, Token.eq_of_texts signs (separate_furtherTokens legible)
    (separate_furtherTokens legible') _ ((String.append_right_inj _).1 sameSql.1) sameSql.2]

end Signs

end Joinery.Sql
