import Joinery.Proofs.Query.Members

/-!
Contract: dotted paths as associations followed one by one.

The names of a dotted text are the pieces between its dots, so the names of
two texts with a dot between them are the names of the first and then those
of the second. A context reaches another along names if each name is followed
by itself, from the context that the names before it reach. Looking up a path
that goes on after a dot is looking up the rest where the names before the
dot lead.

The last name is looked up as any member and the names before it only as
associations. A name that is both is a column at the end of a path and an
association before.

Owns: names of dotted texts, reached contexts, and the composition of paths.

Does not own: joins along paths, which need a plan.
-/

namespace Joinery

/-! ## Dotted names -/

namespace Text

theorem segments_eq_splitOn (text : List Char) : segments text = text.splitOn '.' := by
  induction text with
  | nil => rfl
  | cons c rest inductionHypothesis =>
      rw [segments, inductionHypothesis, List.splitOn_cons_eq_if_modifyHead]
      cases cut : rest.splitOn '.' with
      | nil => exact absurd cut (List.splitOn_ne_nil _ _)
      | cons first others => simp

theorem not_mem_of_mem_splitOn {text piece : List Char} (isPiece : piece ∈ text.splitOn '.') :
    '.' ∉ piece := by
  induction text generalizing piece with
  | nil =>
      rw [List.splitOn_nil, List.mem_singleton] at isPiece
      simp [isPiece]
  | cons c rest inductionHypothesis =>
      rw [List.splitOn_cons_eq_if_modifyHead] at isPiece
      split at isPiece
      case isTrue =>
        rcases List.mem_cons.1 isPiece with rfl | later
        · exact List.not_mem_nil
        · exact inductionHypothesis later
      case isFalse notDot =>
        obtain ⟨first, others, cut⟩ := List.exists_cons_of_ne_nil (List.splitOn_ne_nil '.' rest)
        rw [cut] at isPiece inductionHypothesis
        rcases List.mem_cons.1 isPiece with rfl | later
        · have inFirst := inductionHypothesis List.mem_cons_self
          have differs : '.' ≠ c := fun same => notDot (beq_iff_eq.2 same.symm)
          exact List.not_mem_cons_of_ne_of_not_mem differs inFirst
        · exact inductionHypothesis (List.mem_cons_of_mem _ later)

/-- The names between the dots of a text, in order, empty ones included. -/
def names (text : String) : List String :=
  (text.toList.splitOn '.').map String.ofList

theorem ofString_eq (dotted : String) :
    DottedName.ofString dotted = ⟨(names dotted).dropLast, (names dotted).getLastD ""⟩ := by
  simp only [DottedName.ofString, segments_eq_splitOn, names]

theorem names_ne_nil (text : String) : names text ≠ [] := by
  simp [names, List.splitOn_ne_nil]

theorem names_append (first second : String) :
    names (first ++ "." ++ second) = names first ++ names second := by
  have spelled : (first ++ "." ++ second).toList = first.toList ++ '.' :: second.toList := by
    simp
  rw [names, spelled, List.splitOn_append_cons_self, List.map_append]
  rfl

/-- A name may be empty. -/
example : names "customer..region." = ["customer", "", "region", ""] := by
  rfl

/-- A text without a dot is a single name. -/
theorem names_eq_singleton {text : String} (noDot : '.' ∉ text.toList) :
    names text = [text] := by
  rw [names, List.splitOn_eq_singleton noDot, List.map_singleton, String.ofList_toList]

/-- Names without dots are read back from the text that joins them by dots. -/
theorem names_intercalate {pieces : List String} (nonempty : pieces ≠ [])
    (noDots : ∀ piece ∈ pieces, '.' ∉ piece.toList) :
    names (".".intercalate pieces) = pieces := by
  have cut : (['.'].intercalate (pieces.map String.toList)).splitOn '.' =
      pieces.map String.toList :=
    List.splitOn_intercalate '.' (by simpa using noDots) (by simpa using nonempty)
  have spelled : (".".intercalate pieces).toList =
      ['.'].intercalate (pieces.map String.toList) := String.toList_intercalate
  rw [names, spelled, cut, List.map_map]
  simp [Function.comp_def]

/-- No name has a dot. -/
theorem not_mem_of_mem_names {text name : String} (isName : name ∈ names text) :
    '.' ∉ name.toList := by
  obtain ⟨piece, isPiece, rfl⟩ := List.mem_map.1 isName
  rw [String.toList_ofList]
  exact not_mem_of_mem_splitOn isPiece

end Text

namespace Query

namespace Context

variable {directory : Directory} {context reached : Context Term} {name : String}
  {names : List String}

/-! ## Reached contexts -/

/-- The context that is reached by following associations one after the
other. -/
inductive Reaches (directory : Directory) : Context Term → List String → Context Term → Prop where
  | here (context : Context Term) : Reaches directory context [] context
  | along {context reached : Context Term} {name : String} {names : List String}
      {chain : Chain Term} (followed : association directory context name = .ok chain)
      (further : Reaches directory (.chain chain) names reached) :
      Reaches directory context (name :: names) reached

theorem followAll_eq_ok_iff :
    followAll directory context names = .ok reached ↔
      Reaches directory context names reached := by
  constructor
  · intro followed
    induction names generalizing context with
    | nil =>
        cases followed
        exact .here _
    | cons name names inductionHypothesis =>
        rw [followAll] at followed
        cases first : association directory context name with
        | ok chain =>
            rw [first] at followed
            exact .along first (inductionHypothesis followed)
        | error error =>
            rw [first] at followed
            cases followed
  · intro reaches
    induction reaches with
    | here context => rfl
    | along followed further inductionHypothesis =>
        rw [followAll, followed]
        exact inductionHypothesis

/-- Some names lead to a chain, none lead nowhere. -/
theorem Reaches.chain_or_here (reaches : Reaches directory context names reached) :
    (∃ chain, reached = .chain chain) ∨ (names = [] ∧ reached = context) := by
  induction reaches with
  | here context => exact .inr ⟨rfl, rfl⟩
  | along followed further inductionHypothesis =>
      obtain isChain | ⟨-, stays⟩ := inductionHypothesis
      · exact .inl isChain
      · exact .inl ⟨_, stays⟩

theorem Reaches.exists_chain (reaches : Reaches directory context names reached)
    (nonempty : names ≠ []) : ∃ chain, reached = .chain chain := by
  obtain isChain | ⟨empty, -⟩ := reaches.chain_or_here
  · exact isChain
  · exact absurd empty nonempty

/-- Names can be followed up to the first that is not declared. -/
theorem reaches_or_firstUndeclared (directory : Directory) (context : Context Term)
    (names : List String) :
    (∃ reached, Reaches directory context names reached) ∨
      ∃ name owner, directory.FirstUndeclared context.scope names name owner := by
  cases followed : followAll directory context names with
  | ok reached => exact .inl ⟨reached, followAll_eq_ok_iff.1 followed⟩
  | error error =>
      obtain ⟨name, owner, first, -⟩ := followAll_eq_error_iff.1 followed
      exact .inr ⟨name, owner, first⟩

theorem followAll_of_firstUndeclared {owner : Scope}
    (first : directory.FirstUndeclared context.scope names name owner) :
    followAll directory context names = .error (.associationNotFound owner.model name) :=
  followAll_eq_error_iff.2 ⟨name, owner, first, rfl⟩

theorem followAll_append (directory : Directory) (context : Context Term)
    (names others : List String) :
    followAll directory context (names ++ others) =
      (followAll directory context names).bind fun reached =>
        followAll directory reached others := by
  induction names generalizing context with
  | nil => rfl
  | cons name names inductionHypothesis =>
      rw [List.cons_append, followAll, followAll]
      cases association directory context name with
      | ok chain => exact inductionHypothesis (.chain chain)
      | error error => rfl

/-! ## Paths -/

theorem path_eq (directory : Directory) (context : Context Term) (dotted : String) :
    path directory context dotted =
      match followAll directory context (Text.names dotted).dropLast with
      | .ok reached => get directory reached ((Text.names dotted).getLastD "")
      | .error error => .quiet (.error error) := by
  cases followed : followAll directory context (Text.names dotted).dropLast <;>
    simp only [path, Text.ofString_eq, followed]

/-- What a path goes on with after a dot is looked up where the names before
the dot lead. -/
theorem path_append (directory : Directory) (context : Context Term) (first second : String) :
    path directory context (first ++ "." ++ second) =
      match followAll directory context (Text.names first) with
      | .ok reached => path directory reached second
      | .error error => .quiet (.error error) := by
  have rest := Text.names_ne_nil second
  have sameLast : (Text.names first ++ Text.names second).getLastD "" =
      (Text.names second).getLastD "" := by
    simp [List.getLastD_eq_getLast?, List.getLast?_append, List.getLast?_eq_some_getLast rest]
  rw [path_eq, Text.names_append, List.dropLast_append_of_ne_nil rest, sameLast,
    followAll_append]
  cases followAll directory context (Text.names first) with
  | ok reached => exact (path_eq directory reached second).symm
  | error error => rfl

/-- A member that is a column is the one of the name that was looked up. -/
theorem get_eq_column {column : Column Term}
    (found : (get directory context name).value = .ok (.column column)) :
    column = ⟨context, name⟩ :=
  (resolve_eq_column_iff.1 (resolve_of_get found)).2

/-- A column that a path leads to is a column of the context that the names
before its own lead to. -/
theorem path_eq_column {column : Column Term} {dotted : String}
    (found : (path directory context dotted).value = .ok (.column column)) :
    ∃ earlier, Text.names dotted = earlier ++ [column.name] ∧
      Reaches directory context earlier column.context := by
  rw [path_eq] at found
  cases followed : followAll directory context (Text.names dotted).dropLast with
  | ok reached =>
      rw [followed] at found
      obtain rfl := get_eq_column found
      refine ⟨(Text.names dotted).dropLast, ?_, followAll_eq_ok_iff.1 followed⟩
      rw [List.getLastD_eq_getLast?, List.getLast?_eq_some_getLast (Text.names_ne_nil dotted)]
      exact (List.dropLast_concat_getLast (Text.names_ne_nil dotted)).symm
  | error error =>
      rw [followed] at found
      cases found

/-- A column that is found under its own name is a column of the context that
was asked. -/
theorem eq_of_path_eq_column {column : String}
    (found : (path directory context column).value = .ok (.column ⟨reached, column⟩)) :
    reached = context := by
  obtain ⟨earlier, split, reaches⟩ := path_eq_column found
  have isName : column ∈ Text.names column := by
    rw [split]
    exact List.mem_append_right _ List.mem_cons_self
  have single := Text.names_eq_singleton (Text.not_mem_of_mem_names isName)
  rw [single] at split
  obtain rfl : earlier = [] := by
    cases earlier with
    | nil => rfl
    | cons name earlier => simp at split
  cases reaches
  rfl

end Context

end Query

end Joinery
