import Joinery.Json.Parser
import Joinery.Proofs.Json.Scanning

/-!
Contract: printed trees are read back.

A tree is printed as a sequence of tokens, and reading these tokens gives the
tree. The reader keeps what is open on a stack, so a tree inside another one is
read in the same way on any stack. With the scanning of written tokens, the
text of a tree without numerals spells this tree (`parse?_print`).

Owns: the tokens of trees, and the reading of printed texts.

Does not own: other texts of the same tree.
-/

namespace Joinery.Json

/-! ## Tokens of trees -/

mutual

/-- The tokens that a tree is printed with. -/
def tokens : Json → List Token
  | .null => [.null]
  | .bool value => [.bool value]
  | .number numeral => [.number numeral]
  | .string literal => [.string literal]
  | .array [] => [.beginArray, .endArray]
  | .array (item :: items) => .beginArray :: (tokens item ++ itemTokens items)
  | .object [] => [.beginObject, .endObject]
  | .object ((name, value) :: members) =>
      .beginObject :: .string name :: .colon :: (tokens value ++ memberTokens members)

/-- The tokens of the items after the first, and of the end of the array. -/
def itemTokens : List Json → List Token
  | [] => [.endArray]
  | item :: items => .comma :: (tokens item ++ itemTokens items)

/-- The tokens of the members after the first, and of the end of the
object. -/
def memberTokens : List (Literal × Json) → List Token
  | [] => [.endObject]
  | (name, value) :: members =>
      .comma :: .string name :: .colon :: (tokens value ++ memberTokens members)

end

mutual

/-- The text of a tree is that of its tokens. -/
theorem toList_print : (json : Json) → (print json).toList = Token.texts json.tokens
  | .null => rfl
  | .bool value => by cases value <;> rfl
  | .number numeral => by simp [print, tokens, Token.written]
  | .string literal => by simp [print, tokens, Token.written]
  | .array [] => rfl
  | .array (item :: items) => by
      simp [print, tokens, Token.written, toList_print item, toList_printItems items]
  | .object [] => rfl
  | .object ((name, value) :: members) => by
      simp [print, tokens, Token.written, toList_print value, toList_printMembers members]

theorem toList_printItems : (items : List Json) →
    (printItems items).toList = Token.texts (itemTokens items)
  | [] => rfl
  | item :: items => by
      simp [printItems, itemTokens, Token.written, toList_print item, toList_printItems items]

theorem toList_printMembers : (members : List (Literal × Json)) →
    (printMembers members).toList = Token.texts (memberTokens members)
  | [] => rfl
  | (name, value) :: members => by
      simp [printMembers, memberTokens, Token.written, toList_print value,
        toList_printMembers members]

end

/-! ## Reading -/

/-- The state after some tokens. -/
def State.run? (state : State) (tokens : List Token) : Option State :=
  tokens.foldlM State.step? state

namespace State

theorem run?_cons (state : State) (token : Token) (tokens : List Token) :
    state.run? (token :: tokens) = (state.step? token).bind (run? · tokens) :=
  List.foldlM_cons

theorem run?_append (state : State) (tokens tokens' : List Token) :
    state.run? (tokens ++ tokens') = (state.run? tokens).bind (run? · tokens') :=
  List.foldlM_append

/-- The first item of an array is read like a value. -/
theorem run?_firstItem (outer : List Frame) (json : Json) :
    (firstItem outer).run? json.tokens = (value (.array [] :: outer)).run? json.tokens := by
  cases json with
  | array items => cases items <;> simp [tokens, run?_cons, step?]
  | object members => cases members <;> simp [tokens, run?_cons, step?]
  | _ => simp [tokens, run?_cons, step?]

mutual

/-- A tree is read from its tokens, inside whatever is open. -/
theorem run?_tokens : (json : Json) → (outer : List Frame) →
    (value outer).run? json.tokens = some (complete json outer)
  | .null, outer => rfl
  | .bool truth, outer => rfl
  | .number numeral, outer => rfl
  | .string literal, outer => rfl
  | .array [], outer => rfl
  | .array (item :: items), outer => by
      rw [tokens, run?_cons]
      show (firstItem outer).run? (item.tokens ++ itemTokens items) = _
      rw [run?_append, run?_firstItem, run?_tokens item]
      exact run?_itemTokens items item [] outer
  | .object [], outer => rfl
  | .object ((label, tree) :: members), outer => by
      rw [tokens, run?_cons]
      show (value (.member [] label :: outer)).run? (tree.tokens ++ memberTokens members) = _
      rw [run?_append, run?_tokens tree]
      exact run?_memberTokens members label tree [] outer

theorem run?_itemTokens : (items : List Json) → (item : Json) → (before : List Json) →
    (outer : List Frame) →
    (complete item (.array before :: outer)).run? (itemTokens items) =
      some (complete (.array (before.reverse ++ item :: items)) outer)
  | [], item, before, outer => by
      rw [← List.reverse_cons]
      rfl
  | next :: items, item, before, outer => by
      rw [itemTokens, run?_cons]
      show (value (.array (item :: before) :: outer)).run? (next.tokens ++ itemTokens items) = _
      rw [run?_append, run?_tokens next, Option.bind_some, run?_itemTokens items,
        List.reverse_cons, List.append_assoc]
      rfl

theorem run?_memberTokens : (members : List (Literal × Json)) → (label : Literal) →
    (tree : Json) → (before : List (Literal × Json)) → (outer : List Frame) →
    (complete tree (.member before label :: outer)).run? (memberTokens members) =
      some (complete (.object (before.reverse ++ (label, tree) :: members)) outer)
  | [], label, tree, before, outer => by
      rw [← List.reverse_cons]
      rfl
  | (next, nextTree) :: members, label, tree, before, outer => by
      rw [memberTokens, run?_cons]
      show (value (.member ((label, tree) :: before) next :: outer)).run?
        (nextTree.tokens ++ memberTokens members) = _
      rw [run?_append, run?_tokens nextTree, Option.bind_some, run?_memberTokens members,
        List.reverse_cons, List.append_assoc]
      rfl

end

end State

theorem ofTokens?_tokens (json : Json) : ofTokens? json.tokens = some json := by
  show ((State.value []).run? json.tokens).bind State.result? = some json
  rw [State.run?_tokens]
  rfl

/-! ## Printed texts -/

/-- A tree without numerals. -/
def IsPlain (json : Json) : Prop :=
  ∀ token ∈ json.tokens, token.IsPlain

/-- The text of a tree without numerals spells this tree. -/
theorem parse?_print {json : Json} (plain : json.IsPlain) : parse? json.print = some json := by
  rw [parse?, toList_print, Token.scan_texts plain, Option.bind_some, ofTokens?_tokens]

theorem isPlain_null : Json.null.IsPlain := by
  simp [IsPlain, tokens, Token.IsPlain]

theorem isPlain_text (content : String) : (Json.text content).IsPlain := by
  simp [IsPlain, text, tokens, Token.IsPlain]

theorem isPlain_itemTokens {items : List Json} (plain : ∀ item ∈ items, item.IsPlain) :
    ∀ token ∈ itemTokens items, token.IsPlain := by
  induction items with
  | nil => simp [itemTokens, Token.IsPlain]
  | cons item items inductionHypothesis =>
      obtain ⟨isPlain, othersPlain⟩ := List.forall_mem_cons.1 plain
      rw [itemTokens, List.forall_mem_cons, List.forall_mem_append]
      exact ⟨trivial, isPlain, inductionHypothesis othersPlain⟩

theorem isPlain_array {items : List Json} (plain : ∀ item ∈ items, item.IsPlain) :
    (Json.array items).IsPlain := by
  cases items with
  | nil => simp [IsPlain, tokens, Token.IsPlain]
  | cons item items =>
      obtain ⟨isPlain, othersPlain⟩ := List.forall_mem_cons.1 plain
      rw [IsPlain, tokens, List.forall_mem_cons, List.forall_mem_append]
      exact ⟨trivial, isPlain, isPlain_itemTokens othersPlain⟩

theorem isPlain_memberTokens {members : List (Literal × Json)}
    (plain : ∀ member ∈ members, member.2.IsPlain) :
    ∀ token ∈ memberTokens members, token.IsPlain := by
  induction members with
  | nil => simp [memberTokens, Token.IsPlain]
  | cons member members inductionHypothesis =>
      obtain ⟨isPlain, othersPlain⟩ := List.forall_mem_cons.1 plain
      rw [memberTokens, List.forall_mem_cons, List.forall_mem_cons, List.forall_mem_cons,
        List.forall_mem_append]
      exact ⟨trivial, trivial, trivial, isPlain, inductionHypothesis othersPlain⟩

theorem isPlain_object {members : List (Literal × Json)}
    (plain : ∀ member ∈ members, member.2.IsPlain) : (Json.object members).IsPlain := by
  cases members with
  | nil => simp [IsPlain, tokens, Token.IsPlain]
  | cons member members =>
      obtain ⟨isPlain, othersPlain⟩ := List.forall_mem_cons.1 plain
      rw [IsPlain, tokens, List.forall_mem_cons, List.forall_mem_cons, List.forall_mem_cons,
        List.forall_mem_append]
      exact ⟨trivial, trivial, trivial, isPlain, isPlain_memberTokens othersPlain⟩

theorem isPlain_record {members : List (String × Json)}
    (plain : ∀ member ∈ members, member.2.IsPlain) : (Json.record members).IsPlain := by
  apply isPlain_object
  intro member isMember
  obtain ⟨field, isField, rfl⟩ := List.mem_map.1 isMember
  exact plain field isField

end Joinery.Json
