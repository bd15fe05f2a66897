import Joinery.Json.Printer
import Joinery.Json.Token

/-!
Contract: tokens are scanned as they are written.

Every token is written in one way, and a text of written tokens is cut into
these tokens again (`scan_texts`). In a string literal each character is escaped
by itself and is read back as one symbol, whatever follows it. Numerals are left
out, since where one ends depends on what follows it.

Owns: the written form of tokens, and its scanning.

Does not own: the tokens that a tree is printed with.
-/

namespace Joinery.Json.Token

/-! ## Symbols -/

/-- The symbol that a character inside a string literal is read back as. -/
def symbolOf (c : Char) : Symbol :=
  if escapeLetter? c = none ∧ c.toNat < 0x20 then .unit c.toNat else .char c

theorem hexValue?_hexDigit : ∀ value < 16, Text.hexValue? (Text.hexDigit value) = some value := by
  decide

/-- Short escapes are read back, and the long one is none of them. -/
theorem escaped?_of_escapeLetter? {c letter : Char} (short : escapeLetter? c = some letter) :
    escaped? letter = some c ∧ letter ≠ 'u' := by
  unfold escapeLetter? at short
  split at short <;> cases short <;> decide

theorem ne_of_escapeLetter?_eq_none {c : Char} (noLetter : escapeLetter? c = none) :
    c ≠ '"' ∧ c ≠ '\\' := by
  constructor
  · rintro rfl
    cases noLetter
  · rintro rfl
    cases noLetter

/-- A character of a literal is read as one symbol. -/
theorem symbols?_escape (c : Char) (rest : List Char) :
    symbols? (escape c ++ rest) =
      (symbols? rest).map fun found => (symbolOf c :: found.1, found.2) := by
  unfold escape symbolOf
  cases letterOf : escapeLetter? c with
  | some letter =>
      obtain ⟨readBack, notLong⟩ := escaped?_of_escapeLetter? letterOf
      show symbols? ('\\' :: letter :: rest) = _
      rw [symbols?.eq_def]
      cases found : symbols? rest <;> simp [notLong, readBack, found]
  | none =>
      obtain ⟨notQuote, notBackslash⟩ := ne_of_escapeLetter?_eq_none letterOf
      by_cases control : c.toNat < 0x20
      · have high := hexValue?_hexDigit (c.toNat / 16) (by omega)
        have low := hexValue?_hexDigit (c.toNat % 16) (by omega)
        have zero : Text.hexValue? '0' = some 0 := by decide
        have code : c.toNat / 16 * 16 + c.toNat % 16 = c.toNat := by omega
        cases found : symbols? rest <;>
          simp [control, symbols?, high, low, zero, code, found]
      · simp only [control, if_false, and_false, List.singleton_append]
        rw [symbols?.eq_def]
        cases found : symbols? rest <;> simp [notBackslash, control, found]

theorem symbols?_flatMap_escape (content rest : List Char) :
    symbols? (content.flatMap escape ++ '"' :: rest) = some (content.map symbolOf, rest) := by
  induction content with
  | nil => rfl
  | cons c content inductionHypothesis =>
      rw [List.flatMap_cons, List.append_assoc, symbols?_escape, inductionHypothesis]
      rfl

/-- A unit that is no surrogate denotes a character by itself. -/
theorem denote_unit_cons {code : Nat} (single : code < 0xd800) (rest : List Symbol) :
    denote (.unit code :: rest) = (denote rest).map (Char.ofNat code :: ·) := by
  have notHigh : isHighSurrogate code = false := by
    simp only [isHighSurrogate, Bool.and_eq_false_iff, decide_eq_false_iff_not]
    omega
  have notLow : isLowSurrogate code = false := by
    simp only [isLowSurrogate, Bool.and_eq_false_iff, decide_eq_false_iff_not]
    omega
  cases rest with
  | nil => simp [denote, notHigh, notLow]
  | cons next rest =>
      cases next with
      | char c => simp [denote, notHigh, notLow]
      | unit other => simp [denote, notHigh, notLow]

/-- The symbols of a text denote it. -/
theorem denote_map_symbolOf (content : List Char) :
    denote (content.map symbolOf) = some content := by
  induction content with
  | nil => rfl
  | cons c content inductionHypothesis =>
      rw [List.map_cons, symbolOf]
      by_cases long : escapeLetter? c = none ∧ c.toNat < 0x20
      · rw [if_pos long, denote_unit_cons (by omega), inductionHypothesis, Char.ofNat_toNat]
        rfl
      · rw [if_neg long, denote, inductionHypothesis]
        rfl

/-! ## Tokens -/

/-- The characters that a token is written with. -/
def written : Token → List Char
  | .beginArray => ['[']
  | .endArray => [']']
  | .beginObject => ['\x7b']
  | .endObject => ['\x7d']
  | .comma => [',']
  | .colon => [':']
  | .null => "null".toList
  | .bool value => if value then "true".toList else "false".toList
  | .number numeral => numeral.print.toList
  | .string literal => (Literal.print literal).toList

/-- The text of tokens that are written without space between them. -/
def texts (tokens : List Token) : List Char :=
  tokens.flatMap written

@[simp]
theorem texts_nil : texts [] = [] := rfl

@[simp]
theorem texts_cons (token : Token) (tokens : List Token) :
    texts (token :: tokens) = token.written ++ texts tokens :=
  List.flatMap_cons

@[simp]
theorem texts_append (tokens tokens' : List Token) :
    texts (tokens ++ tokens') = texts tokens ++ texts tokens' :=
  List.flatMap_append

/-- Every token but a numeral. -/
def IsPlain : Token → Prop
  | .number _ => False
  | _ => True

theorem string?_literal (literal : Literal) (rest : List Char) :
    next? ((Literal.print literal).toList ++ rest) = some (.string literal, rest) := by
  cases literal with
  | none => rfl
  | some content =>
      have body : (Literal.print (some content)).toList ++ rest =
          '"' :: (content.toList.flatMap escape ++ '"' :: rest) := by
        simp [Literal.print, quote]
      rw [body]
      show string? (content.toList.flatMap escape ++ '"' :: rest) = _
      simp [string?, symbols?_flatMap_escape, denote_map_symbolOf]

/-- A written token is the next one of any text that starts with it. -/
theorem next?_written {token : Token} (plain : token.IsPlain) (rest : List Char) :
    next? (token.written ++ rest) = some (token, rest) := by
  cases token with
  | number numeral => cases plain
  | string literal => exact string?_literal literal rest
  | bool value => cases value <;> rfl
  | _ => rfl

/-- A written token starts with a character that is not skipped. -/
theorem exists_written_eq_cons {token : Token} (plain : token.IsPlain) :
    ∃ c cs, token.written = c :: cs ∧ isSpace c = false := by
  cases token with
  | number numeral => cases plain
  | string literal =>
      cases literal with
      | none => exact ⟨_, _, rfl, rfl⟩
      | some content =>
          refine ⟨'"', content.toList.flatMap escape ++ ['"'], ?_, rfl⟩
          simp [written, Literal.print, quote]
  | bool value => cases value <;> exact ⟨_, _, rfl, rfl⟩
  | _ => exact ⟨_, _, rfl, rfl⟩

/-- Written tokens are scanned one by one. -/
theorem scanUpTo_texts {tokens : List Token} (plain : ∀ token ∈ tokens, token.IsPlain)
    {fuel : Nat} (enough : tokens.length ≤ fuel) :
    scanUpTo fuel (texts tokens) = some tokens := by
  induction tokens generalizing fuel with
  | nil =>
      unfold scanUpTo
      rfl
  | cons token tokens inductionHypothesis =>
      obtain ⟨isPlain, othersPlain⟩ := List.forall_mem_cons.1 plain
      obtain ⟨c, cs, starts, notSpace⟩ := exists_written_eq_cons isPlain
      obtain ⟨fuel, rfl⟩ : ∃ less, fuel = less + 1 :=
        Nat.exists_eq_add_one_of_ne_zero (by simp at enough; omega)
      have next := next?_written isPlain (texts tokens)
      have others := inductionHypothesis othersPlain (by simpa using enough)
      rw [starts, List.cons_append] at next
      rw [texts_cons, starts, List.cons_append, scanUpTo,
        List.dropWhile_cons_of_neg (by simp [notSpace])]
      simp [next, others]

theorem length_le_length_texts {tokens : List Token} (plain : ∀ token ∈ tokens, token.IsPlain) :
    tokens.length ≤ (texts tokens).length := by
  induction tokens with
  | nil => exact Nat.le_refl 0
  | cons token tokens inductionHypothesis =>
      obtain ⟨isPlain, othersPlain⟩ := List.forall_mem_cons.1 plain
      obtain ⟨c, cs, starts, -⟩ := exists_written_eq_cons isPlain
      have shorter := inductionHypothesis othersPlain
      rw [texts_cons, starts, List.length_append, List.length_cons, List.length_cons]
      omega

/-- A text of written tokens is cut into these tokens again. -/
theorem scan_texts {tokens : List Token} (plain : ∀ token ∈ tokens, token.IsPlain) :
    scan (texts tokens) = some tokens :=
  scanUpTo_texts plain (length_le_length_texts plain)

end Joinery.Json.Token
