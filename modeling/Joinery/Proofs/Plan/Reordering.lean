import Joinery.Proofs.Catalog.Contexts
import Joinery.Proofs.Plan.Aliasing
import Joinery.Proofs.Plan.Conditions

/-!
Contract: the order of joins decides the order of entries and automatic
aliases, and nothing else.

Sources are compatible if they can all be joined to one root, come from one
catalog, and agree on the join kind and the condition wherever they traverse
the same key. Compatible sources joined in any order give a plan with the
same keys. Which traversal of a key comes first then makes no difference to
its entry, because the association is determined by the path, and the parent
by its own key. Only an automatic alias depends on what was joined before, so
the entries are the same if none is assigned.

Owns: compatible sources, and plans of the same sources in two orders.

Does not own: operations that fail or that lower terms.
-/

namespace Joinery

open Query (Chain Context Event Hop Segment Table Term)
open Sql (Relation)

/-! ## Runs that join sources -/

/-- Joins a source. -/
def Operation.join : Context Term → Operation
  | .chain chain => .joinChain chain
  | .table table => .joinTable table

/-- A plan for the root can join the source: a chain that starts at the root,
or a table with a condition. -/
def Plan.Joinable (root : Table Term) : Context Term → Prop
  | .chain chain => chain.root.model = root.model ∧ chain.root.relation = root.relation
  | .table table => table.condition.isSome

namespace Run

variable {root : Table Term} {sources : List (Context Term)}

/-- The run that joins some sources in order. -/
def joining (root : Table Term) (sources : List (Context Term)) : Run :=
  of root (sources.map .join)

/-- Joining a source of a run succeeds. -/
theorem joined_join {run : Run} (atRoot : run.plan.root = root) {source : Context Term}
    (joinable : Plan.Joinable root source) :
    ∃ relation, (Operation.join source).joined run.plan = [⟨source, relation⟩] := by
  cases source with
  | chain chain =>
      have starts : Planning.isRoot run.plan chain.root = true := by
        simp [Planning.isRoot, Plan.base, atRoot, joinable.1, joinable.2]
      have joined := Planning.joinChain_of_isRoot starts
      refine ⟨(run.plan.walk chain.hops).owner, ?_⟩
      simp only [Operation.join, Operation.joined, Joined.ofContext, Joined.ofOutcome, joined]
  | table table =>
      obtain ⟨relation, succeeds⟩ := Planning.joinTable_of_isSome joinable run.plan
      refine ⟨relation, ?_⟩
      simp only [Operation.join, Operation.joined, Joined.ofOutcome, succeeds]

theorem sources_joining (joinable : ∀ source ∈ sources, Plan.Joinable root source) :
    (joining root sources).joined.map Joined.source = sources := by
  induction sources using List.reverseRecOn with
  | nil => rfl
  | append_singleton sources source inductionHypothesis =>
      have before := inductionHypothesis fun source member =>
        joinable source (List.mem_append_left _ member)
      obtain ⟨relation, joined⟩ := joined_join (root_of root (sources.map .join))
        (joinable source (List.mem_append_right _ (List.mem_singleton_self _)))
      rw [joining, List.map_append, List.map_singleton, of_concat, next, joined, extend,
        List.map_append, List.map_singleton, ← joining, before]

/-- What the joins of a run contribute is what its sources do. -/
theorem flatMap_joining {α : Type} (joinable : ∀ source ∈ sources, Plan.Joinable root source)
    (part : Context Term → List α) :
    (joining root sources).joined.flatMap (fun joined => part joined.source) =
      sources.flatMap part := by
  rw [← List.flatMap_map, sources_joining joinable]

end Run

/-! ## Compatible sources -/

namespace Plan

/-- Sources of one catalog that can be joined to one root and agree on how
they traverse every key. -/
structure Compatible (catalog : Catalog) (root : Table Term)
    (sources : List (Context Term)) : Prop where
  obtained : ∀ source ∈ sources, catalog.Obtained source
  joinable : ∀ source ∈ sources, Joinable root source
  hops : ∀ step ∈ sources.flatMap Plan.hops, ∀ other ∈ sources.flatMap Plan.hops,
    step.1 = other.1 →
      step.2.table.join = other.2.table.join ∧ step.2.table.condition = other.2.table.condition
  tables : ∀ place ∈ sources.flatMap Plan.tables, ∀ other ∈ sources.flatMap Plan.tables,
    place.1 = other.1 →
      place.2.join = other.2.join ∧ place.2.condition = other.2.condition

theorem Key.of_inj {relation relation' : Relation} {path path' : List Segment} :
    Key.of relation path = Key.of relation' path' ↔ relation = relation' ∧ path = path' := by
  cases relation
  cases relation'
  simp [Key.of, and_assoc]

/-- A hop of a walk is traversed under the path that leads up to it. -/
theorem mem_zip_hopKeys {hops : List (Hop Term)} {step : Key × Hop Term}
    (member : step ∈ (hopKeys [] hops).zip hops) :
    ∃ earlier later, hops = earlier ++ step.2 :: later ∧
      step.1 = .of step.2.table.relation ((earlier ++ [step.2]).map segment) := by
  induction hops using List.reverseRecOn with
  | nil => simp at member
  | append_singleton hops hop inductionHypothesis =>
      rw [zip_hopKeys_concat] at member
      rcases List.mem_append.1 member with before | last
      · obtain ⟨earlier, later, split, key⟩ := inductionHypothesis before
        refine ⟨earlier, later ++ [hop], ?_, key⟩
        rw [split, List.append_assoc, List.cons_append]
      · obtain rfl := List.mem_singleton.1 last
        exact ⟨hops, [], rfl, rfl⟩

theorem mem_hops {source : Context Term} {step : Key × Hop Term} (member : step ∈ hops source) :
    ∃ chain earlier later, source = .chain chain ∧ chain.hops = earlier ++ step.2 :: later ∧
      step.1 = .of step.2.table.relation ((earlier ++ [step.2]).map segment) := by
  cases source with
  | chain chain =>
      obtain ⟨earlier, later, split, key⟩ := mem_zip_hopKeys member
      exact ⟨chain, earlier, later, rfl, split, key⟩
  | table table => cases member

theorem name_segment (hops : List (Hop Term)) :
    (hops.map segment).map Segment.name = hops.map Hop.name := by
  rw [List.map_map]
  rfl

namespace Compatible

variable {catalog : Catalog} {root : Table Term} {sources sources' : List (Context Term)}

theorem perm (compatible : Compatible catalog root sources) (permuted : sources.Perm sources') :
    Compatible catalog root sources' where
  obtained source member := compatible.obtained source (permuted.mem_iff.2 member)
  joinable source member := compatible.joinable source (permuted.mem_iff.2 member)
  hops step member other member' := compatible.hops
    step ((permuted.flatMap_right Plan.hops).mem_iff.2 member)
    other ((permuted.flatMap_right Plan.hops).mem_iff.2 member')
  tables place member other member' := compatible.tables
    place ((permuted.flatMap_right Plan.tables).mem_iff.2 member)
    other ((permuted.flatMap_right Plan.tables).mem_iff.2 member')

variable (compatible : Compatible catalog root sources)
include compatible

/-- A path determines the key that is traversed at its end and the link that
is followed there. -/
theorem step_eq {step other : Key × Hop Term} (isStep : step ∈ sources.flatMap Plan.hops)
    (otherIsStep : other ∈ sources.flatMap Plan.hops) (samePath : step.1.path = other.1.path) :
    step.1 = other.1 ∧ step.2.link = other.2.link := by
  obtain ⟨source, isSource, member⟩ := List.mem_flatMap.1 isStep
  obtain ⟨source', isSource', member'⟩ := List.mem_flatMap.1 otherIsStep
  obtain ⟨chain, earlier, later, rfl, split, key⟩ := mem_hops member
  obtain ⟨chain', earlier', later', rfl, split', key'⟩ := mem_hops member'
  rw [key, key'] at samePath ⊢
  have sameSegments : (earlier ++ [step.2]).map segment = (earlier' ++ [other.2]).map segment :=
    samePath
  have sameNames := congrArg (List.map Segment.name) sameSegments
  rw [name_segment, name_segment] at sameNames
  have sameRoot : chain.root.model = chain'.root.model :=
    (compatible.joinable _ isSource).1.trans (compatible.joinable _ isSource').1.symm
  obtain ⟨sameLink, sameTable⟩ := (compatible.obtained _ isSource).places.link_eq
    (compatible.obtained _ isSource').places sameRoot split split' sameNames
  have sameAlias : step.2.table.relation.aliasName = other.2.table.relation.aliasName := by
    rw [List.map_append, List.map_append] at sameSegments
    have sameSegment := List.singleton_inj.1 (List.append_inj' sameSegments rfl).2
    exact congrArg Segment.aliasName sameSegment
  refine ⟨?_, sameLink⟩
  rw [Key.of, Key.of, sameTable, sameAlias, sameSegments]

end Compatible

end Plan

/-! ## Entries of compatible sources -/

namespace Run

variable {catalog : Catalog} {root : Table Term} {sources sources' : List (Context Term)}
  {entry entry' : Plan.Entry} {position position' : Nat} {owner owner' : Relation}

/-- Every traversed key has an entry, whatever the order. -/
theorem keys_joining (joinable : ∀ source ∈ sources, Plan.Joinable root source) :
    (joining root sources).plan.keys = (sources.flatMap Plan.traversed).eraseDups := by
  rw [← flatMap_joining joinable]
  exact (recorded root _).keys

theorem nodup_keys_joining (root : Table Term) (sources : List (Context Term)) :
    (joining root sources).plan.keys.Nodup :=
  (recorded root _).consistent.nodup_keys

/-- An entry with a path is joined as a hop of the sources says. -/
theorem hop_of_entry (joinable : ∀ source ∈ sources, Plan.Joinable root source)
    (atPosition : (joining root sources).plan.entries[position]? = some entry)
    (hasPath : entry.path ≠ []) :
    ∃ hop, (entry.key, hop) ∈ sources.flatMap Plan.hops ∧
      (joining root sources).plan.JoinedBy position entry hop := by
  obtain ⟨hop, isFirst, joinedBy⟩ := explained root _ position entry atPosition hasPath
  refine ⟨hop, ?_, joinedBy⟩
  rw [← flatMap_joining joinable]
  exact Plan.mem_of_lookup isFirst

/-- An entry without a path is that of a table among the sources. -/
theorem table_of_entry (joinable : ∀ source ∈ sources, Plan.Joinable root source)
    (isEntry : entry ∈ (joining root sources).plan.entries) (noPath : entry.path = []) :
    ∃ table condition, (entry.key, table) ∈ sources.flatMap Plan.tables ∧
      table.condition = some condition ∧ entry = Plan.tableEntry table condition := by
  obtain ⟨table, condition, isFirst, declared, same⟩ := tabled root _ entry isEntry noPath
  refine ⟨table, condition, ?_, declared, same⟩
  rw [← flatMap_joining joinable]
  exact Plan.mem_of_lookup isFirst

/-- Without automatic aliases, the relation of an entry is the chosen one. -/
theorem relation_eq_of_quiet (quiet : (joining root sources).log.any Event.isAliasing = false)
    (isEntry : entry ∈ (joining root sources).plan.entries) :
    entry.relation = ⟨entry.key.table, entry.key.aliasName⟩ := by
  rw [joining, any_isAliasing_log, List.any_eq_false] at quiet
  have chosen : entry.relation.aliasName = entry.key.aliasName := by
    simpa [Plan.Entry.isAutoAliased] using quiet entry isEntry
  rw [Plan.table_key, ← chosen]

section TwoOrders

variable (compatible : Plan.Compatible catalog root sources) (permuted : sources.Perm sources')
include compatible permuted

/-- Entries with the same path have the same key. -/
theorem key_eq_of_path (isEntry : entry ∈ (joining root sources).plan.entries)
    (isEntry' : entry' ∈ (joining root sources').plan.entries)
    (samePath : entry.path = entry'.path) (hasPath : entry.path ≠ []) :
    entry.key = entry'.key := by
  obtain ⟨position, atPosition⟩ := List.mem_iff_getElem?.1 isEntry
  obtain ⟨position', atPosition'⟩ := List.mem_iff_getElem?.1 isEntry'
  obtain ⟨hop, isStep, -⟩ := hop_of_entry compatible.joinable atPosition hasPath
  obtain ⟨hop', isStep', -⟩ := hop_of_entry (compatible.perm permuted).joinable atPosition'
    (samePath ▸ hasPath)
  have isStep' := (permuted.flatMap_right Plan.hops).mem_iff.2 isStep'
  apply (compatible.step_eq isStep isStep' _).1
  rw [Plan.path_key, Plan.path_key, samePath]

theorem perm_keys :
    (joining root sources).plan.keys.Perm (joining root sources').plan.keys := by
  rw [List.perm_ext_iff_of_nodup (nodup_keys_joining root sources)
    (nodup_keys_joining root sources')]
  intro key
  rw [keys_joining compatible.joinable, keys_joining (compatible.perm permuted).joinable,
    List.mem_eraseDups, List.mem_eraseDups, (permuted.flatMap_right Plan.traversed).mem_iff]

variable (quiet : (joining root sources).log.any Event.isAliasing = false)
  (quiet' : (joining root sources').log.any Event.isAliasing = false)
include quiet quiet'

omit compatible permuted in
theorem relation_eq_of_key (isEntry : entry ∈ (joining root sources).plan.entries)
    (isEntry' : entry' ∈ (joining root sources').plan.entries) (sameKey : entry.key = entry'.key) :
    entry.relation = entry'.relation := by
  rw [relation_eq_of_quiet quiet isEntry, relation_eq_of_quiet quiet' isEntry', sameKey]

/-- The parent of an entry is the same in both orders. -/
theorem owner_eq (parentOf : (joining root sources).plan.ParentOf position entry owner)
    (parentOf' : (joining root sources').plan.ParentOf position' entry' owner')
    (samePath : entry.path = entry'.path) : owner = owner' := by
  have sameRest : entry.path.dropLast = entry'.path.dropLast := by rw [samePath]
  obtain ⟨atBase, rfl⟩ | ⟨parent, isParent, continued, notEmpty, rfl⟩ := parentOf.base_or_entry <;>
    obtain ⟨atBase', rfl⟩ | ⟨parent', isParent', continued', notEmpty', rfl⟩ :=
      parentOf'.base_or_entry
  · rw [joining, joining, base_of, base_of]
  · exact absurd (continued'.trans (sameRest.symm.trans atBase)) notEmpty'
  · exact absurd (continued.trans (sameRest.trans atBase')) notEmpty
  · have sameParentPath : parent.path = parent'.path :=
      continued.trans (sameRest.trans continued'.symm)
    exact relation_eq_of_key quiet quiet' isParent isParent'
      (key_eq_of_path compatible permuted isParent isParent' sameParentPath notEmpty)

omit quiet quiet' in
/-- Entries of tables take everything from the table and its key. -/
theorem entry_eq_of_no_path (isEntry : entry ∈ (joining root sources).plan.entries)
    (isEntry' : entry' ∈ (joining root sources').plan.entries) (sameKey : entry.key = entry'.key)
    (noPath : entry.path = []) (noPath' : entry'.path = []) : entry = entry' := by
  obtain ⟨table, condition, isPlace, declared, rfl⟩ :=
    table_of_entry compatible.joinable isEntry noPath
  obtain ⟨table', condition', isPlace', declared', rfl⟩ :=
    table_of_entry (compatible.perm permuted).joinable isEntry' noPath'
  have isPlace' := (permuted.flatMap_right Plan.tables).mem_iff.2 isPlace'
  obtain ⟨sameKind, sameCondition⟩ := compatible.tables _ isPlace _ isPlace' sameKey
  have sameTerm : condition = condition' :=
    Option.some.inj (declared.symm.trans (sameCondition.trans declared'))
  have sameRelation : table.relation = table'.relation := (Plan.Key.of_inj.1 sameKey).1
  have sameKind : table.join = table'.join := sameKind
  rw [Plan.tableEntry, Plan.tableEntry, sameRelation, sameKind, sameTerm]

/-- Entries of hops are joined to the same parent, alike. -/
theorem entry_eq_of_path (isEntry : entry ∈ (joining root sources).plan.entries)
    (isEntry' : entry' ∈ (joining root sources').plan.entries) (sameKey : entry.key = entry'.key)
    (hasPath : entry.path ≠ []) (samePath : entry.path = entry'.path) : entry = entry' := by
  obtain ⟨position, atPosition⟩ := List.mem_iff_getElem?.1 isEntry
  obtain ⟨position', atPosition'⟩ := List.mem_iff_getElem?.1 isEntry'
  obtain ⟨hop, isStep, kind, owner, parent, joinedOn⟩ :=
    hop_of_entry compatible.joinable atPosition hasPath
  obtain ⟨hop', isStep', kind', owner', parent', joinedOn'⟩ :=
    hop_of_entry (compatible.perm permuted).joinable atPosition' (samePath ▸ hasPath)
  have isStep' := (permuted.flatMap_right Plan.hops).mem_iff.2 isStep'
  -- The two hops may come from different chains, but what decides how the
  -- entry is joined is the same.
  obtain ⟨sameKind, sameCondition⟩ := compatible.hops _ isStep _ isStep' sameKey
  have sameLink := (compatible.step_eq isStep isStep' (congrArg Plan.Key.path sameKey)).2
  have sameOwner := owner_eq compatible permuted quiet quiet' parent parent' samePath
  have sameRelation := relation_eq_of_key quiet quiet' isEntry isEntry' sameKey
  have sameOn : entry.on = entry'.on := by
    rw [joinedOn.on_eq, joinedOn'.on_eq, Query.Hop.condition?, Query.Hop.condition?,
      sameCondition, sameLink, sameOwner, sameRelation]
  cases entry
  cases entry'
  congr 1
  exact kind.trans (sameKind.trans kind'.symm)

/-- Every entry of one order is an entry of the other. -/
theorem mem_entries_of_mem (isEntry : entry ∈ (joining root sources).plan.entries) :
    entry ∈ (joining root sources').plan.entries := by
  have isKey := (perm_keys compatible permuted).mem_iff.1 (Plan.mem_keys.2 ⟨entry, isEntry, rfl⟩)
  obtain ⟨entry', isEntry', sameKey⟩ := Plan.mem_keys.1 isKey
  have samePath : entry.path = entry'.path := by
    rw [← Plan.path_key entry, ← Plan.path_key entry', sameKey]
  have same : entry = entry' := by
    by_cases noPath : entry.path = []
    · exact entry_eq_of_no_path compatible permuted isEntry isEntry' sameKey.symm noPath
        (samePath ▸ noPath)
    · exact entry_eq_of_path compatible permuted quiet quiet' isEntry isEntry' sameKey.symm noPath
        samePath
  rw [same]
  exact isEntry'

end TwoOrders

/-- Joining compatible sources makes one entry for every key that they
traverse. Two orders give plans of the same size with the same keys. If no
automatic alias was assigned in either of them, they have the same entries
too, though perhaps at other positions. -/
theorem joins_reordered (catalog : Catalog) (root : Table Term)
    (sources sources' : List (Context Term)) (compatible : Plan.Compatible catalog root sources)
    (permuted : sources.Perm sources') :
    (joining root sources).plan.keys = (sources.flatMap Plan.traversed).eraseDups ∧
    (joining root sources).plan.entries.length = (joining root sources').plan.entries.length ∧
    (joining root sources).plan.keys.Perm (joining root sources').plan.keys ∧
    ((joining root sources).log.any Event.isAliasing = false →
      (joining root sources').log.any Event.isAliasing = false →
      (joining root sources).plan.entries.Perm (joining root sources').plan.entries) := by
  have sameKeys := perm_keys compatible permuted
  refine ⟨keys_joining compatible.joinable, ?_, sameKeys, ?_⟩
  · rw [← Plan.length_keys, ← Plan.length_keys]
    exact sameKeys.length_eq
  · intro quiet quiet'
    have distinct := (nodup_keys_joining root sources).of_map
    have distinct' := (nodup_keys_joining root sources').of_map
    rw [List.perm_ext_iff_of_nodup distinct distinct']
    intro entry
    exact ⟨mem_entries_of_mem compatible permuted quiet quiet',
      mem_entries_of_mem (compatible.perm permuted) permuted.symm quiet' quiet⟩

end Run

namespace Staff

/-- The catalog that has employees and their managers. -/
def catalog : Catalog :=
  { document :=
      { models :=
          [{ name := ⟨"Employee"⟩
             table := "employees"
             columns := ["id", "name", "manager_id"]
             associations := [.belongsTo "manager" ⟨"Employee"⟩] }] } }

/-- The chain to the manager of the boss. -/
def chief : Chain Term :=
  (boss.extend manager.last.link).mapTarget (·.withAlias "chief")

/-- Employees joined once more, to those of the same name. -/
def namesake : Table Term :=
  (employees.withAlias "namesake").on (.binary .eq
    (.column ⟨.table (employees.withAlias "namesake"), "name"⟩)
    (.column ⟨.table employees, "name"⟩))

def sources : List (Context Term) :=
  [.chain boss, .table namesake, .chain chief]

theorem forall_mem_sources {holds : Context Term → Prop} (ofBoss : holds (.chain boss))
    (ofNamesake : holds (.table namesake)) (ofChief : holds (.chain chief)) :
    ∀ source ∈ sources, holds source := by
  intro source member
  obtain rfl | rfl | rfl :
      source = .chain boss ∨ source = .table namesake ∨ source = .chain chief := by
    simpa [sources] using member
  · exact ofBoss
  · exact ofNamesake
  · exact ofChief

theorem obtained_sources : ∀ source ∈ sources, catalog.Obtained source := by
  have ofTable : catalog.Obtained (.table employees) :=
    .table (show catalog.table "Employee" = .ok employees from rfl)
  have ofManager : catalog.Obtained (.chain manager) :=
    .association ofTable (show (Context.table employees).association catalog.directory
      "manager" = .ok manager from rfl)
  have ofBoss : catalog.Obtained (.chain boss) := ofManager.withAlias "boss"
  have ofManagers : catalog.Obtained (.chain (boss.extend manager.last.link)) :=
    .association ofBoss (show (Context.chain boss).association catalog.directory
      "manager" = .ok (boss.extend manager.last.link) from rfl)
  exact forall_mem_sources ofBoss ((ofTable.withAlias "namesake").on _)
    (ofManagers.withAlias "chief")

theorem compatible_sources : Plan.Compatible catalog employees sources where
  obtained := obtained_sources
  joinable := forall_mem_sources ⟨rfl, rfl⟩ rfl ⟨rfl, rfl⟩
  hops := by
    have plain : (sources.flatMap Plan.hops).all (fun step =>
        decide (step.2.table.join = .inner) && step.2.table.condition.isNone) = true := rfl
    rw [List.all_eq_true] at plain
    intro step member other member' _
    have ofStep := plain step member
    have ofOther := plain other member'
    rw [Bool.and_eq_true, decide_eq_true_eq, Option.isNone_iff_eq_none] at ofStep ofOther
    exact ⟨ofStep.1.trans ofOther.1.symm, ofStep.2.trans ofOther.2.symm⟩
  tables := by
    intro place member other member' _
    obtain rfl := List.mem_singleton.1 member
    obtain rfl := List.mem_singleton.1 member'
    exact ⟨rfl, rfl⟩

theorem staff_reordered :
    Plan.Compatible catalog employees sources ∧
    sources.Perm sources.reverse ∧
    (Run.joining employees sources).log.any Event.isAliasing = false ∧
    (Run.joining employees sources.reverse).log.any Event.isAliasing = false ∧
    (Run.joining employees sources).plan.entries.Perm
      (Run.joining employees sources.reverse).plan.entries := by
  have permuted : sources.Perm sources.reverse := (List.reverse_perm sources).symm
  have quiet : (Run.joining employees sources).log.any Event.isAliasing = false := by decide
  have quiet' : (Run.joining employees sources.reverse).log.any Event.isAliasing = false := by
    decide
  exact ⟨compatible_sources, permuted, quiet, quiet',
    (Run.joins_reordered catalog employees sources sources.reverse compatible_sources
      permuted).2.2.2 quiet quiet'⟩

end Staff

end Joinery
