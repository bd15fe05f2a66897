import Joinery.Plan.Lowering
import Joinery.Proofs.Values.Alike

/-!
Contract: alike things are joined into alike plans.

Two plans are alike if they know the same keys under the same positions, and
if their entries agree up to the values that their conditions bind. No choice
in joining reads a condition: whether a hop is new is decided by its key, and
its alias by the qualifiers taken. The comparison of conditions when
something is joined again tells only which event is logged. So alike chains
and tables are joined into alike plans by alike walks, with the same relation
or the same error, and so are the leaves of alike terms.

Owns: alike plans and walks, operations that do not depend on values, joining
and lowering among them.

Does not own: runs, and the text of statements.
-/

namespace Joinery

open Query (Chain Context Directory Error Hop Table Term)
open Sql (Expr Relation)

variable {values : Value → Value → Prop}

/-! ## Plans -/

namespace Plan

/-- The entries differ only in the values that their conditions bind. -/
structure Entry.Alike (values : Value → Value → Prop) (entry entry' : Entry) : Prop where
  relation : entry'.relation = entry.relation
  kind : entry'.kind = entry.kind
  on : Expr.Alike values entry.on entry'.on
  path : entry'.path = entry.path

/-- Staged entries under the same key that differ only in values. -/
inductive ArrivalAlike (values : Value → Value → Prop) : Key × Entry → Key × Entry → Prop where
  | mk (key : Key) {entry entry' : Entry} (entries : entry.Alike values entry') :
      ArrivalAlike values (key, entry) (key, entry')

/-- The plans differ only in the values that the conditions of their root and
of their entries bind. -/
structure Alike (values : Value → Value → Prop) (plan plan' : Plan) : Prop where
  root : Table.Alike (Term.Alike values) plan.root plan'.root
  entries : List.Forall₂ (Entry.Alike values) plan.entries plan'.entries
  index : plan'.index = plan.index

theorem map_eq_of_forall₂ {α β : Type} {related : α → α → Prop} (view : α → β)
    (agree : ∀ {first second}, related first second → view second = view first)
    {firsts seconds : List α} (pairs : List.Forall₂ related firsts seconds) :
    seconds.map view = firsts.map view := by
  have images : List.Forall₂ Eq (firsts.map view) (seconds.map view) := by
    rw [List.forall₂_map_left_iff, List.forall₂_map_right_iff]
    exact pairs.imp fun _ _ alike => (agree alike).symm
  rw [List.forall₂_eq_eq_eq] at images
  exact images.symm

theorem forall₂_getElem? {α : Type} {related : α → α → Prop} {first second : List α}
    (pairs : List.Forall₂ related first second) (position : Nat) :
    Option.Rel related first[position]? second[position]? := by
  induction pairs generalizing position with
  | nil => exact .none
  | cons head _ inductionHypothesis =>
      cases position with
      | zero => exact .some head
      | succ position => exact inductionHypothesis position

theorem ArrivalAlike.relation {arrival arrival' : Key × Entry}
    (arrivals : ArrivalAlike values arrival arrival') :
    arrival'.2.relation = arrival.2.relation := by
  cases arrivals with
  | mk key entries => exact entries.relation

theorem forall₂_lookup {staged staged' : List (Key × Entry)}
    (pairs : List.Forall₂ (ArrivalAlike values) staged staged') (key : Key) :
    Option.Rel (Entry.Alike values) (staged.lookup key) (staged'.lookup key) := by
  induction pairs with
  | nil => exact .none
  | cons head _ inductionHypothesis =>
      cases head with
      | mk other entries =>
          rw [List.lookup_cons, List.lookup_cons]
          split
          · exact .some entries
          · exact inductionHypothesis

namespace Alike

variable {plan plan' : Plan} (plans : plan.Alike values plan')
include plans

theorem base : plan'.base = plan.base :=
  plans.root.relation

theorem relations : plan'.entries.map (·.relation) = plan.entries.map (·.relation) :=
  map_eq_of_forall₂ _ (fun alike => alike.relation) plans.entries

theorem qualifiers : plan'.qualifiers = plan.qualifiers := by
  have sameQualifiers := map_eq_of_forall₂ (·.relation.qualifier)
    (fun alike => congrArg Relation.qualifier alike.relation) plans.entries
  rw [Plan.qualifiers, Plan.qualifiers, plans.base, sameQualifiers]

theorem find? (key : Key) :
    Option.Rel (Entry.Alike values) (plan.find? key) (plan'.find? key) := by
  have samePosition : plan'.position? key = plan.position? key := by
    rw [position?, position?, plans.index]
  rw [Plan.find?, Plan.find?, samePosition]
  cases plan.position? key with
  | none => exact .none
  | some position => exact forall₂_getElem? plans.entries position

theorem append (key : Key) {entry entry' : Entry} (alike : entry.Alike values entry') :
    (plan.append key entry).Alike values (plan'.append key entry') where
  root := plans.root
  entries := List.rel_append plans.entries (.cons alike .nil)
  index := by
    show (key, plan'.entries.length) :: plan'.index = (key, plan.entries.length) :: plan.index
    rw [plans.index, plans.entries.length_eq]

theorem commit {staged staged' : List (Key × Entry)}
    (pairs : List.Forall₂ (ArrivalAlike values) staged staged') :
    (plan.commit staged).Alike values (plan'.commit staged') := by
  have adding : ∀ plan plan', Alike values plan plan' → ∀ arrival arrival',
      ArrivalAlike values arrival arrival' →
        Alike values (plan.append arrival.1 arrival.2) (plan'.append arrival'.1 arrival'.2) := by
    intro plan plan' plans arrival arrival' arrivals
    cases arrivals with
    | mk key entries => exact plans.append key entries
  exact List.rel_foldl adding plans pairs

end Alike

/-! ## Walks -/

theorem alike_hopCondition {hop hop' : Hop Term} (hops : Hop.Alike (Term.Alike values) hop hop')
    (owner target : Relation) :
    Expr.Alike values (hopCondition hop owner target) (hopCondition hop' owner target) := by
  cases hops with
  | mk links tables =>
      cases tables with
      | mk scope relation join conditions =>
          cases links with
          | mk name kind target foreignKey primaryKey declared =>
              cases conditions with
              | some chosen => exact chosen.detached
              | none =>
                  cases declared with
                  | some predeclared => exact predeclared.detached
                  | none => exact .binary .eq (.identifier _) (.identifier _)

theorem segment_eq_of_alike {hop hop' : Hop Term}
    (hops : Hop.Alike (Term.Alike values) hop hop') : segment hop' = segment hop := by
  rw [segment, segment, hops.name, hops.relation]

theorem relationFor_eq_of_alike {hop hop' : Hop Term}
    (hops : Hop.Alike (Term.Alike values) hop hop') (taken : List String) (owner : Relation) :
    relationFor taken hop' owner = relationFor taken hop owner := by
  simp only [relationFor, aliasStem, hops.name, hops.relation]

/-- The walks stand at the same relation after the same path, and staged
entries that differ only in values. What they logged may differ. -/
structure Walk.Alike (values : Value → Value → Prop) (walk walk' : Walk) : Prop where
  staged : List.Forall₂ (ArrivalAlike values) walk.staged walk'.staged
  owner : walk'.owner = walk.owner
  path : walk'.path = walk.path

namespace Walk.Alike

variable {plan plan' : Plan} {walk walk' : Walk} {hop hop' : Hop Term}

theorem taken (plans : plan.Alike values plan') (walks : walk.Alike values walk') :
    walk'.taken plan' = walk.taken plan := by
  have sameQualifiers := map_eq_of_forall₂ (·.2.relation.qualifier)
    (fun alike => congrArg Relation.qualifier alike.relation) walks.staged
  rw [Walk.taken, Walk.taken, plans.qualifiers, sameQualifiers]

theorem find? (plans : plan.Alike values plan') (walks : walk.Alike values walk') (key : Key) :
    Option.Rel (Entry.Alike values) (walk.find? plan key) (walk'.find? plan' key) := by
  -- Staged entries are looked at only if the plan has none, in both walks.
  have inPlan := plans.find? key
  unfold Walk.find?
  generalize plan.find? key = found at inPlan ⊢
  generalize plan'.find? key = found' at inPlan ⊢
  cases inPlan with
  | some alike => exact .some alike
  | none => exact forall₂_lookup walks.staged key

theorem pathTo (walks : walk.Alike values walk') (hops : Hop.Alike (Term.Alike values) hop hop') :
    walk'.pathTo hop' = walk.pathTo hop := by
  rw [Walk.pathTo, Walk.pathTo, walks.path, segment_eq_of_alike hops]

theorem keyTo (walks : walk.Alike values walk') (hops : Hop.Alike (Term.Alike values) hop hop') :
    walk'.keyTo hop' = walk.keyTo hop := by
  rw [Walk.keyTo, Walk.keyTo, walks.pathTo hops, hops.relation]

theorem reuse (walks : walk.Alike values walk') (hops : Hop.Alike (Term.Alike values) hop hop')
    {entry entry' : Entry} (entries : entry.Alike values entry') :
    (walk.reuse hop entry).Alike values (walk'.reuse hop' entry') where
  staged := walks.staged
  owner := entries.relation
  path := walks.pathTo hops

theorem entryUnder (walks : walk.Alike values walk')
    (hops : Hop.Alike (Term.Alike values) hop hop') (relation : Relation) :
    (walk.entryUnder hop relation).Alike values (walk'.entryUnder hop' relation) where
  relation := rfl
  kind := hops.join
  on := by
    show Expr.Alike values (hopCondition hop walk.owner relation)
      (hopCondition hop' walk'.owner relation)
    rw [walks.owner]
    exact alike_hopCondition hops walk.owner relation
  path := walks.pathTo hops

theorem stage (plans : plan.Alike values plan') (walks : walk.Alike values walk')
    (hops : Hop.Alike (Term.Alike values) hop hop') :
    (walk.stage plan hop).Alike values (walk'.stage plan' hop') := by
  have sameChoice : relationFor (walk'.taken plan') hop' walk'.owner =
      relationFor (walk.taken plan) hop walk.owner := by
    rw [walks.taken plans, walks.owner, relationFor_eq_of_alike hops]
  have newEntries := walks.entryUnder hops (relationFor (walk.taken plan) hop walk.owner).1
  unfold Walk.stage
  rw [sameChoice, walks.keyTo hops]
  exact ⟨List.rel_append walks.staged (.cons (.mk _ newEntries) .nil), rfl, walks.pathTo hops⟩

/-- Whether the key is known is the same for both, so both go over an entry
or both stage one. -/
theorem step (plans : plan.Alike values plan') (walks : walk.Alike values walk')
    (hops : Hop.Alike (Term.Alike values) hop hop') :
    (walk.step plan hop).Alike values (walk'.step plan' hop') := by
  have found := walks.find? plans (walk.keyTo hop)
  unfold Walk.step
  rw [walks.keyTo hops]
  generalize walk.find? plan (walk.keyTo hop) = entry at found ⊢
  generalize walk'.find? plan' (walk.keyTo hop) = entry' at found ⊢
  cases found with
  | some entries => exact walks.reuse hops entries
  | none => exact walks.stage plans hops

end Walk.Alike

theorem Alike.walk {plan plan' : Plan} (plans : plan.Alike values plan')
    {hops hops' : List (Hop Term)}
    (pairs : List.Forall₂ (Hop.Alike (Term.Alike values)) hops hops') :
    (plan.walk hops).Alike values (plan'.walk hops') := by
  have starts : (Walk.start plan).Alike values (Walk.start plan') := ⟨.nil, plans.base, rfl⟩
  exact List.rel_foldl (fun _ _ walks _ _ hops => walks.step plans hops) starts pairs

end Plan

/-! ## Operations -/

/-- The results agree: two values that are alike, or the same error. -/
inductive Agree {α : Type} (alike : α → α → Prop) : Except Error α → Except Error α → Prop where
  | ok {value value' : α} (related : alike value value') : Agree alike (.ok value) (.ok value')
  | error (error : Error) : Agree alike (.error error) (.error error)

theorem Agree.eq {α : Type} {result result' : Except Error α} (results : Agree Eq result result') :
    result' = result := by
  cases results with
  | ok same => rw [same]
  | error error => rfl

theorem Agree.imp {α : Type} {alike weaker : α → α → Prop} {result result' : Except Error α}
    (results : Agree alike result result')
    (weaken : ∀ {value value'}, alike value value' → weaker value value') :
    Agree weaker result result' := by
  cases results with
  | ok related => exact .ok (weaken related)
  | error error => exact .error error

/-- The results agree and the plans are alike. What is logged may differ. -/
structure Outcome.Alike {α : Type} (values : Value → Value → Prop) (alike : α → α → Prop)
    (outcome outcome' : Outcome α) : Prop where
  result : Agree alike outcome.result outcome'.result
  plan : outcome.plan.Alike values outcome'.plan

namespace Planning

/-- On alike plans, the operations give alike results and plans. -/
def Alike {α : Type} (values : Value → Value → Prop) (alike : α → α → Prop)
    (operation operation' : Planning α) : Prop :=
  ∀ ⦃plan plan' : Plan⦄, plan.Alike values plan' →
    (operation plan).Alike values alike (operation' plan')

namespace Alike

variable {α β : Type} {alike : α → α → Prop} {later : β → β → Prop}

theorem give {value value' : α} (related : alike value value') :
    Alike values alike (give value) (give value') :=
  fun _ _ plans => ⟨.ok related, plans⟩

theorem bind {operation operation' : Planning α} {next next' : α → Planning β}
    (first : Alike values alike operation operation')
    (second : ∀ {value value'}, alike value value' →
      Alike values later (next value) (next' value')) :
    Alike values later (operation >>= next) (operation' >>= next') := by
  intro plan plan' plans
  obtain ⟨results, middles⟩ := first plans
  rcases ran : operation plan with ⟨result, middle, events⟩
  rcases ran' : operation' plan' with ⟨result', middle', events'⟩
  rw [ran, ran'] at results middles
  cases results with
  | ok related =>
      rw [bind_of_ok ran, bind_of_ok ran']
      exact ⟨(second related middles).result, (second related middles).plan⟩
  | error error =>
      rw [bind_of_error ran, bind_of_error ran']
      exact ⟨.error error, middles⟩

end Alike

/-! ## Joins -/

theorem isRoot_eq_of_alike {plan plan' : Plan} (plans : plan.Alike values plan')
    {table table' : Table Term} (tables : Table.Alike (Term.Alike values) table table') :
    isRoot plan' table' = isRoot plan table := by
  have sameModel : table'.model = table.model := congrArg Query.Scope.model tables.scope
  have sameRootModel : plan'.root.model = plan.root.model :=
    congrArg Query.Scope.model plans.root.scope
  simp only [isRoot, sameModel, sameRootModel, tables.relation, plans.base]

theorem alike_joinChain {chain chain' : Chain Term}
    (chains : Chain.Alike (Term.Alike values) chain chain') :
    Alike values Eq (joinChain chain) (joinChain chain') := by
  intro plan plan' plans
  have walks := plans.walk chains.hops
  have sameRoot := isRoot_eq_of_alike plans chains.root
  unfold joinChain
  rw [sameRoot, plans.base, chains.root.relation]
  split
  · exact ⟨.ok walks.owner.symm, plans.commit walks.staged⟩
  · exact ⟨.error _, plans⟩

theorem alike_joinTable {table table' : Table Term}
    (tables : Table.Alike (Term.Alike values) table table') :
    Alike values Eq (joinTable table) (joinTable table') := by
  intro plan plan' plans
  cases tables with
  | mk scope relation join conditions =>
      cases conditions with
      | none => exact ⟨.error _, plans⟩
      | some condition =>
          have found := plans.find? (.of relation [])
          simp only [joinTable]
          generalize plan.find? (.of relation []) = entry at found ⊢
          generalize plan'.find? (.of relation []) = entry' at found ⊢
          cases found with
          | some entries => exact ⟨.ok entries.relation.symm, plans⟩
          | none => exact ⟨.ok rfl, plans.append _ ⟨rfl, rfl, condition.detached, rfl⟩⟩

theorem alike_joinContext {context context' : Context Term}
    (contexts : Context.Alike (Term.Alike values) context context') :
    Alike values Eq (joinContext context) (joinContext context') := by
  intro plan plan' plans
  cases contexts with
  | chain chains => exact alike_joinChain chains plans
  | table tables =>
      -- None of the tests on a table reads a condition, except whether it is
      -- there, so both tables take the same branch.
      simp only [joinContext]
      rw [isRoot_eq_of_alike plans tables, tables.conditioned, plans.relations, tables.relation]
      split
      · exact ⟨.ok rfl, plans⟩
      · split
        · exact alike_joinTable tables plans
        · split
          · exact ⟨.ok rfl, plans⟩
          · exact ⟨.error _, plans⟩

/-- Following the same names in alike directories leads to alike contexts,
or fails at the same name. -/
theorem alike_followAll {directory directory' : Directory}
    (directories : directory.Alike values directory') {context context' : Context Term}
    (contexts : Context.Alike (Term.Alike values) context context') (names : List String) :
    Agree (Context.Alike (Term.Alike values)) (Context.followAll directory context names)
      (Context.followAll directory' context' names) := by
  induction names generalizing context context' with
  | nil => exact .ok contexts
  | cons name others inductionHypothesis =>
      have links := directories context.scope name
      simp only [Context.followAll, Context.association, Context.model, contexts.scope]
      generalize directory.link? context.scope name = link at links ⊢
      generalize directory'.link? context.scope name = link' at links ⊢
      cases links with
      | none => exact .error _
      | some alike => exact inductionHypothesis (.chain (contexts.follow alike))

theorem alike_joinPath {directory directory' : Directory}
    (directories : directory.Alike values directory') (names : List String) :
    Alike values Eq (joinPath directory names) (joinPath directory' names) := by
  intro plan plan' plans
  have reached := alike_followAll directories (.table plans.root) names
  unfold joinPath
  generalize Context.followAll directory (.table plan.root) names = found at reached ⊢
  generalize Context.followAll directory' (.table plan'.root) names = found' at reached ⊢
  cases reached with
  | error error => exact ⟨.error error, plans⟩
  | ok contexts =>
      cases contexts with
      | table tables => exact ⟨.ok tables.relation.symm, plans⟩
      | chain chains => exact alike_joinChain chains plans

/-! ## Lowering -/

mutual

theorem alike_lower : {term term' : Term} → Term.Alike values term term' →
    Alike values (Expr.Alike values) (lower term) (lower term')
  | _, _, .value related => .give (.value related)
  | _, _, .sql fragment => .give (.literal fragment)
  | _, _, .column name contexts =>
      (alike_joinContext contexts).bind fun same => by
        subst same
        exact .give (.identifier _)
  | _, _, .relation contexts =>
      (alike_joinContext contexts).bind fun same => by
        subst same
        exact .give (.wildcard _)
  | _, _, .binary op lefts rights =>
      (alike_lower lefts).bind fun left =>
        (alike_lower rights).bind fun right => .give (.binary op left right)
  | _, _, .isNull negated operands =>
      (alike_lower operands).bind fun operand => .give (.isNull negated operand)
  | _, _, .inList negated operands lists =>
      (alike_lower operands).bind fun operand =>
        (alike_lowerList lists).bind fun items => .give (.inList negated operand items)
  | _, _, .call name star lists =>
      (alike_lowerList lists).bind fun args => .give (.call name star args)
  | _, _, .aliased aliasName operands =>
      (alike_lower operands).bind fun operand => .give (.aliased aliasName operand)

theorem alike_lowerList : {terms terms' : List Term} →
    List.Forall₂ (Term.Alike values) terms terms' →
    Alike values (List.Forall₂ (Expr.Alike values)) (lowerList terms) (lowerList terms')
  | _, _, .nil => .give .nil
  | _, _, .cons first others =>
      (alike_lower first).bind fun expr =>
        (alike_lowerList others).bind fun exprs => .give (.cons expr exprs)

end

end Planning

end Joinery
