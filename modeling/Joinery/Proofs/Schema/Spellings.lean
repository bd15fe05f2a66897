import Joinery.Proofs.Json.Printing
import Joinery.Schema.Layout
import Mathlib.Data.List.Forall2
import Mathlib.Data.List.Nodup

/-!
Contract: the texts of a schema document.

A document is written in one way and read in many. An object spells a record
whatever the order of its members; members of other names may stand among them,
and fields that have their default may be left out. Every text that spells a
document is read as this document, and then refused only for the document's own
fault (`Document.ofText_of_spelled`).

Owns: what spells a document, and that it is read.

Does not own: records that are written as arrays, and texts that are refused.
-/

namespace Joinery.Schema

/-! ## Records -/

/-- The members for those fields of a record that are present, in order. -/
def presentMembers (fields : List (String × Option Json)) : List (String × Json) :=
  fields.filterMap fun field => field.2.map fun value => (field.1, value)

/-- The members, in any order, are the present fields of a record and members of
other names. -/
def Spells (fields : List (String × Option Json)) (members : List (Json.Literal × Json)) : Prop :=
  ∃ others : List (String × Json), (fields.map Prod.fst).Disjoint (others.map Prod.fst) ∧
    members.Perm ((presentMembers fields ++ others).map fun member => (some member.1, member.2))

/-- The present fields alone spell their record. -/
theorem spells_presentMembers (fields : List (String × Option Json)) :
    Spells fields ((presentMembers fields).map fun member => (some member.1, member.2)) := by
  refine ⟨[], by simp, ?_⟩
  rw [List.append_nil]

section Members

variable {fields : List (String × Option Json)} {field : String × Option Json}
  {members : List (Json.Literal × Json)}

/-- The values of the members of a given name, where all names are texts. -/
theorem membersNamed_map (name : String) (members : List (String × Json)) :
    Json.membersNamed name (members.map fun member => (some member.1, member.2)) =
      members.filterMap fun member => if member.1 = name then some member.2 else none := by
  unfold Json.membersNamed
  rw [List.filterMap_map]
  simp

theorem filterMap_eq_nil_of_not_mem {α : Type} {name : String} {items : List (String × α)}
    {value? : String × α → Option Json} (absent : name ∉ items.map Prod.fst) :
    items.filterMap (fun item => if item.1 = name then value? item else none) = [] := by
  rw [List.filterMap_eq_nil_iff]
  intro item isItem
  rw [if_neg]
  rintro rfl
  exact absent (List.mem_map_of_mem isItem)

/-- The present members of a name are the present fields of this name. -/
theorem filterMap_presentMembers (fields : List (String × Option Json)) (name : String) :
    ((presentMembers fields).filterMap fun member =>
        if member.1 = name then some member.2 else none) =
      fields.filterMap fun field => if field.1 = name then field.2 else none := by
  unfold presentMembers
  rw [List.filterMap_filterMap]
  congr 1
  funext field
  cases field.2 <;> simp

/-- Under the name of a field, its own value is the only one. -/
theorem filterMap_eq_toList (distinct : (fields.map Prod.fst).Nodup) (isField : field ∈ fields) :
    (fields.filterMap fun other => if other.1 = field.1 then other.2 else none) =
      field.2.toList := by
  induction fields with
  | nil => cases isField
  | cons first fields inductionHypothesis =>
      obtain ⟨once, others⟩ := List.nodup_cons.1 distinct
      obtain rfl | later := List.mem_cons.1 isField
      · rw [List.filterMap_cons, if_pos rfl, filterMap_eq_nil_of_not_mem once]
        cases field.2 <;> rfl
      · have different : first.1 ≠ field.1 := fun same =>
          once (same ▸ List.mem_map_of_mem later)
        rw [List.filterMap_cons, if_neg different]
        exact inductionHypothesis others later

theorem Spells.any_eq_none (spells : Spells fields members) :
    (members.any fun member => member.1 = none) = false := by
  obtain ⟨others, -, permuted⟩ := spells
  rw [List.any_eq_false]
  intro member isMember
  obtain ⟨text, -, rfl⟩ := List.mem_map.1 (permuted.subset isMember)
  simp

/-- Members that spell a record have the value of a field under its name, if it
is present, and no other one. -/
theorem Spells.membersNamed (spells : Spells fields members)
    (distinct : (fields.map Prod.fst).Nodup) (isField : field ∈ fields) :
    Json.membersNamed field.1 members = field.2.toList := by
  obtain ⟨others, disjoint, permuted⟩ := spells
  have values : (Json.membersNamed field.1 members).Perm (Json.membersNamed field.1 _) :=
    permuted.filterMap _
  rw [membersNamed_map, List.filterMap_append, filterMap_presentMembers,
    filterMap_eq_toList distinct isField,
    filterMap_eq_nil_of_not_mem (disjoint (List.mem_map_of_mem isField)),
    List.append_nil] at values
  cases present : field.2 with
  | none =>
      rw [present] at values
      exact List.perm_nil.1 values
  | some value =>
      rw [present] at values
      exact List.perm_singleton.1 values

/-- Reading items one by one gives what each of them is read as. -/
theorem mapM_eq_some_of_forall₂ {α β : Type} {read : α → Option β} {items : List α}
    {values : List β}
    (reads : List.Forall₂ (fun item value => read item = some value) items values) :
    items.mapM read = some values := by
  induction reads with
  | nil => rfl
  | cons reads others inductionHypothesis =>
      simp [List.mapM_cons, reads, inductionHypothesis]

/-- From members that spell a record, its fields are read. -/
theorem fields?_of_spells {names : List String} (distinct : names.Nodup)
    (spells : Spells fields members) (named : fields.map Prod.fst = names) :
    fields? names (.object members) = some (fields.map Prod.snd) := by
  subst named
  rw [fields?, spells.any_eq_none, if_neg Bool.false_ne_true]
  apply mapM_eq_some_of_forall₂
  rw [List.forall₂_map_left_iff, List.forall₂_map_right_iff, List.forall₂_same]
  intro field isField
  rw [spells.membersNamed distinct isField]
  cases field.2 <;> rfl

end Members

/-! ## Fields -/

section Fields

variable {α : Type} {spelled : α → Json → Prop} {read : Json → Option α}

/-- A tree spells a value in the form in which it is written. -/
def Written (write : α → Json) (value : α) (json : Json) : Prop :=
  json = write value

/-- A field spells a value, or it is left out and the value is the default. -/
inductive Optional (default : α) (spelled : α → Json → Prop) : α → Option Json → Prop where
  | present {value : α} {json : Json} (spells : spelled value json) :
      Optional default spelled value (some json)
  | omitted : Optional default spelled default none

/-- The items of an array spell the values of a list. -/
inductive ListSpelled (spelled : α → Json → Prop) (values : List α) : Json → Prop where
  | array {items : List Json} (spells : List.Forall₂ spelled values items) :
      ListSpelled spelled values (.array items)

theorem withDefault_of_optional {default value : α} {field : Option Json}
    (isSpelled : Optional default spelled value field)
    (reads : ∀ json, spelled value json → read json = some value) :
    withDefault default read field = some value := by
  cases isSpelled with
  | present spells => simp [withDefault, reads _ spells]
  | omitted => rfl

theorem list?_of_listSpelled {values : List α} {json : Json}
    (isSpelled : ListSpelled spelled values json)
    (reads : ∀ value json, spelled value json → read json = some value) :
    list? read json = some values := by
  obtain ⟨spells⟩ := isSpelled
  apply mapM_eq_some_of_forall₂
  exact (spells.imp reads).flip

/-- A list that is written item by item spells itself. -/
theorem listSpelled_map {write : α → Json} {values : List α}
    (writes : ∀ value, spelled value (write value)) :
    ListSpelled spelled values (.array (values.map write)) := by
  constructor
  rw [List.forall₂_map_right_iff, List.forall₂_same]
  exact fun value _ => writes value

end Fields

/-! ## Documents -/

/-- An object that spells an association. Both key columns have a default. -/
inductive Association.Spelled (association : Association) : Json → Prop where
  | object {members : List (Json.Literal × Json)} {foreignKey primaryKey : Option Json}
      (ofForeignKey : Optional none (Written nullableToJson) association.foreignKey foreignKey)
      (ofPrimaryKey :
        Optional defaultPrimaryKey (Written .text) association.primaryKey primaryKey)
      (spells : Spells
        [ ("name", some (.text association.name)),
          ("kind", some (.text association.kind.name)),
          ("target", some (.text association.target.text)),
          ("foreign_key", foreignKey),
          ("primary_key", primaryKey) ] members) :
      Spelled association (.object members)

/-- An object that spells a model. All but its name and table have a default. -/
inductive Model.Spelled (model : Model) : Json → Prop where
  | object {members : List (Json.Literal × Json)} {schema columns associations : Option Json}
      (ofSchema : Optional none (Written nullableToJson) model.schema schema)
      (ofColumns : Optional [] (ListSpelled (Written .text)) model.columns columns)
      (ofAssociations :
        Optional [] (ListSpelled Association.Spelled) model.associations associations)
      (spells : Spells
        [ ("name", some (.text model.name.text)),
          ("table", some (.text model.table)),
          ("schema", schema),
          ("columns", columns),
          ("associations", associations) ] members) :
      Spelled model (.object members)

/-- An object that spells a document. The models have no default. -/
inductive Document.Spelled (document : Document) : Json → Prop where
  | object {members : List (Json.Literal × Json)} {models : Json}
      (ofModels : ListSpelled Model.Spelled document.models models)
      (spells : Spells [("models", some models)] members) :
      Spelled document (.object members)

/-! ## Writing -/

theorem Association.spelled_toJson (association : Association) :
    association.Spelled association.toJson :=
  .object (.present rfl) (.present rfl) (spells_presentMembers _)

theorem Model.spelled_toJson (model : Model) : model.Spelled model.toJson :=
  .object (.present rfl) (.present (listSpelled_map fun _ => rfl))
    (.present (listSpelled_map Association.spelled_toJson)) (spells_presentMembers _)

theorem Document.spelled_toJson (document : Document) : document.Spelled document.toJson :=
  .object (listSpelled_map Model.spelled_toJson) (spells_presentMembers _)

/-! ## Reading -/

theorem string?_text (content : String) : string? (.text content) = some content := rfl

theorem modelName?_text (name : ModelName) : modelName? (.text name.text) = some name := rfl

theorem AssociationKind.ofJson?_text (kind : AssociationKind) :
    ofJson? (.text kind.name) = some kind :=
  ofName?_name kind

theorem string?_of_written {content : String} {json : Json} (written : Written .text content json) :
    string? json = some content := by
  rw [written, string?_text]

theorem nullable?_of_written {content : Option String} {json : Json}
    (written : Written nullableToJson content json) : nullable? json = some content := by
  rw [written]
  cases content <;> rfl

theorem Association.ofJson?_of_spelled {association : Association} {json : Json}
    (isSpelled : association.Spelled json) : Association.ofJson? json = some association := by
  obtain @⟨members, foreignKey, primaryKey, ofForeignKey, ofPrimaryKey, spells⟩ := isSpelled
  have distinct : ["name", "kind", "target", "foreign_key", "primary_key"].Nodup := by decide
  have readForeignKey : withDefault none nullable? foreignKey = some association.foreignKey :=
    withDefault_of_optional ofForeignKey fun json => nullable?_of_written
  have readPrimaryKey : withDefault defaultPrimaryKey string? primaryKey =
      some association.primaryKey :=
    withDefault_of_optional ofPrimaryKey fun json => string?_of_written
  unfold Association.ofJson?
  rw [fields?_of_spells distinct spells rfl]
  simp [required, string?_text, modelName?_text, AssociationKind.ofJson?_text, readForeignKey,
    readPrimaryKey]

theorem Model.ofJson?_of_spelled {model : Model} {json : Json}
    (isSpelled : model.Spelled json) : Model.ofJson? json = some model := by
  obtain @⟨members, schema, columns, associations, ofSchema, ofColumns, ofAssociations, spells⟩ :=
    isSpelled
  have distinct : ["name", "table", "schema", "columns", "associations"].Nodup := by decide
  have readSchema : withDefault none nullable? schema = some model.schema :=
    withDefault_of_optional ofSchema fun json => nullable?_of_written
  have readColumns : withDefault [] (list? string?) columns = some model.columns :=
    withDefault_of_optional ofColumns fun json isList =>
      list?_of_listSpelled isList fun content json => string?_of_written
  have readAssociations : withDefault [] (list? Association.ofJson?) associations =
      some model.associations :=
    withDefault_of_optional ofAssociations fun json isList =>
      list?_of_listSpelled isList fun association json => Association.ofJson?_of_spelled
  unfold Model.ofJson?
  rw [fields?_of_spells distinct spells rfl]
  simp [required, string?_text, modelName?_text, readSchema, readColumns, readAssociations]

theorem Document.ofJson?_of_spelled {document : Document} {json : Json}
    (isSpelled : document.Spelled json) : Document.ofJson? json = some document := by
  obtain @⟨members, models, ofModels, spells⟩ := isSpelled
  have distinct : ["models"].Nodup := by decide
  have readModels : list? Model.ofJson? models = some document.models :=
    list?_of_listSpelled ofModels fun model json => Model.ofJson?_of_spelled
  unfold Document.ofJson?
  rw [fields?_of_spells distinct spells rfl]
  simp [required, readModels]

/-- A tree that spells a document is read as this document, unless the document
itself is refused. -/
theorem Document.ofJson_of_spelled {document : Document} {json : Json}
    (isSpelled : document.Spelled json) :
    Document.ofJson json = document.validate.map fun _ => document := by
  rw [Document.ofJson, Document.ofJson?_of_spelled isSpelled]

/-! ## Texts -/

theorem isPlain_nullableToJson (content : Option String) : (nullableToJson content).IsPlain := by
  cases content with
  | none => exact Json.isPlain_null
  | some content => exact Json.isPlain_text content

theorem Association.isPlain_toJson (association : Association) : association.toJson.IsPlain := by
  apply Json.isPlain_record
  simp [Json.isPlain_text, isPlain_nullableToJson]

theorem Model.isPlain_toJson (model : Model) : model.toJson.IsPlain := by
  have columns : (Json.array (model.columns.map .text)).IsPlain := by
    apply Json.isPlain_array
    simp [Json.isPlain_text]
  have associations : (Json.array (model.associations.map Association.toJson)).IsPlain := by
    apply Json.isPlain_array
    simp [Association.isPlain_toJson]
  apply Json.isPlain_record
  simp [Json.isPlain_text, isPlain_nullableToJson, columns, associations]

theorem Document.isPlain_toJson (document : Document) : document.toJson.IsPlain := by
  have models : (Json.array (document.models.map Model.toJson)).IsPlain := by
    apply Json.isPlain_array
    simp [Model.isPlain_toJson]
  apply Json.isPlain_record
  simp [models]

/-- The text that a document is written as gives this document back, or its own
fault if it has one. So does every text of a tree that spells it: with members
in another order, with members of unknown names, and without fields that have
their default. -/
theorem Document.ofText_of_spelled (document : Document) :
    Document.ofText document.toJson.print = document.validate.map (fun _ => document) ∧
    ∀ json source, document.Spelled json → Json.parse? source = some json →
      Document.ofText source = document.validate.map fun _ => document := by
  have ofSpelled (json : Json) (source : String) (isSpelled : document.Spelled json)
      (isText : Json.parse? source = some json) :
      Document.ofText source = document.validate.map fun _ => document := by
    rw [Document.ofText, isText]
    exact Document.ofJson_of_spelled isSpelled
  exact ⟨ofSpelled _ _ document.spelled_toJson (Json.parse?_print document.isPlain_toJson),
    ofSpelled⟩

/-- A model that has every default. -/
def item : Model :=
  { name := ⟨"Item"⟩, table := "items" }

/-- The defaults are left out, the rest is in another order, and there is a
member of an unknown name. -/
def itemsTree : Json :=
  .record
    [ ("models",
        .array
          [.record [("note", .null), ("table", .text "items"), ("name", .text "Item")]]) ]

def itemsText : String :=
  "\x7b\"models\": [\x7b\"note\": null, \"table\": \"items\", \"name\": \"Item\"\x7d]\x7d"

theorem spelled_itemsTree : Document.Spelled { models := [item] } itemsTree := by
  have spells : Spells
      [ ("name", some (.text "Item")), ("table", some (.text "items")), ("schema", none),
        ("columns", none), ("associations", none) ]
      [ (some "note", .null), (some "table", .text "items"), (some "name", .text "Item") ] := by
    refine ⟨[("note", .null)], by simp, ?_⟩
    exact List.reverse_perm
      [(some "name", Json.text "Item"), (some "table", Json.text "items"), (some "note", Json.null)]
  have ofItem : item.Spelled
      (.record [("note", .null), ("table", .text "items"), ("name", .text "Item")]) :=
    .object .omitted .omitted .omitted spells
  exact .object (.array (.cons ofItem .nil)) (spells_presentMembers _)

theorem ofText_itemsText :
    Document.Spelled { models := [item] } itemsTree ∧
    Json.parse? itemsText = some itemsTree ∧
    Document.ofText itemsText = .ok { models := [item] } := by
  have isText : Json.parse? itemsText = some itemsTree := rfl
  exact ⟨spelled_itemsTree, isText,
    (Document.ofText_of_spelled { models := [item] }).2 itemsTree itemsText spelled_itemsTree
      isText⟩

end Joinery.Schema
