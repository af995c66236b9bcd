import ItemSchema.Proofs.Registry.Registration
import ItemSchema.Proofs.Table
import Mathlib.Data.List.Induction

/-! Item and relation records, read off the declarations they are merged from.

An item is its accepted declarations, merged in order. An attribute of it is built
from the last declaration of the name, and the relations are those first declared
under each name, in that order.
-/

set_option autoImplicit false

namespace ItemSchema

def Declaration.itemNamed? (name : String) : Declaration → Option ItemDeclaration
  | .item declaration => if declaration.name = name then some declaration else none
  | _ => none

def Declaration.relation? : Declaration → Option RelationDeclaration
  | .relation declaration => some declaration
  | _ => none

/-- The accepted declarations of an item, in order. -/
def itemDeclarations (declarations : List Declaration) (name : String) : List ItemDeclaration :=
  (declarations.filter (·.isAccepted)).filterMap (·.itemNamed? name)

def relationDeclarations (declarations : List Declaration) : List RelationDeclaration :=
  (declarations.filter (·.isAccepted)).filterMap (·.relation?)

theorem mem_itemDeclarations (declarations : List Declaration) (name : String)
    (declaration : ItemDeclaration) :
    declaration ∈ itemDeclarations declarations name ↔
      Declaration.item declaration ∈ declarations ∧ (Declaration.item declaration).isAccepted ∧
        declaration.name = name := by
  simp only [itemDeclarations, List.mem_filterMap, List.mem_filter]
  constructor
  · rintro ⟨found, ⟨member, accepted⟩, named⟩
    cases found with
    | item found =>
      simp only [Declaration.itemNamed?, Option.ite_none_right_eq_some, Option.some.injEq] at named
      obtain ⟨same, rfl⟩ := named
      exact ⟨member, accepted, same⟩
    | _ => cases named
  · rintro ⟨member, accepted, same⟩
    exact ⟨.item declaration, ⟨member, accepted⟩, by simp [Declaration.itemNamed?, same]⟩

namespace Item

def mergeAll (policy : ParentPolicy) (item : Item) (declarations : List ItemDeclaration) : Item :=
  declarations.foldl (fun item declaration => (item.merge policy declaration).1) item

theorem mergeAll_cons (policy : ParentPolicy) (item : Item) (declaration : ItemDeclaration)
    (rest : List ItemDeclaration) :
    item.mergeAll policy (declaration :: rest) = (item.merge policy declaration).1.mergeAll policy rest :=
  rfl

@[simp] theorem name_merge (policy : ParentPolicy) (item : Item) (declaration : ItemDeclaration) :
    (item.merge policy declaration).1.name = item.name := rfl

theorem name_mergeAll (policy : ParentPolicy) (item : Item) (declarations : List ItemDeclaration) :
    (item.mergeAll policy declarations).name = item.name := by
  induction declarations generalizing item with
  | nil => rfl
  | cons declaration rest ih => exact ih _

def attributeEntries (name : String) (attributes : List AttributeDeclaration) :
    List (String × Attribute) :=
  (attributes.filterMap (Attribute.ofDeclaration? name)).map fun built => (built.name, built)

theorem attributes_mergeAll (policy : ParentPolicy) (item : Item)
    (declarations : List ItemDeclaration) :
    (item.mergeAll policy declarations).attributes =
      item.attributes.insertAll (attributeEntries item.name (declarations.flatMap (·.attributes))) := by
  induction declarations generalizing item with
  | nil => rfl
  | cons declaration rest ih =>
    have written : (item.merge policy declaration).1.attributes =
        item.attributes.insertAll (attributeEntries item.name declaration.attributes) := rfl
    rw [mergeAll_cons, ih, written, name_merge]
    simp [Table.insertAll, attributeEntries]

/-- Of the attributes declared under a name, the last one stands. -/
theorem find?_attributeEntries (name feature : String) (attributes : List AttributeDeclaration) :
    ((attributeEntries name attributes).filter (·.1 = feature)).getLast?.map Prod.snd =
      (attributes.filter (Text.trimmed? ·.name = some feature)).getLast?.bind
        (Attribute.ofDeclaration? name) := by
  induction attributes using List.reverseRecOn with
  | nil => rfl
  | append_singleton attributes last ih =>
    cases trimmed : Text.trimmed? last.name with
    | none => simpa [attributeEntries, Attribute.ofDeclaration?, trimmed] using ih
    | some written =>
      by_cases same : written = feature
      · simp [attributeEntries, Attribute.ofDeclaration?, trimmed, same]
      · simpa [attributeEntries, Attribute.ofDeclaration?, trimmed, same] using ih

end Item

namespace Registry

@[simp] theorem parentPolicy_merge (registry : Registry) (declaration : Declaration) :
    (registry.merge declaration).parentPolicy = registry.parentPolicy := by
  cases declaration with
  | item | enumeration | collection | map => rfl
  | relation declaration => rw [merge, mergeRelation_eq]; rfl
  | atomic declaration => rw [merge, mergeAtomic_eq]; rfl

/-- A declaration of an item is merged into the record of its name, and no other declaration
touches an item. -/
theorem find?_items_merge (registry : Registry) (declaration : Declaration) (name : String) :
    (registry.merge declaration).items.find? name =
      match declaration.itemNamed? name with
      | some declared =>
          some (((registry.items.find? name).getD { name }).merge registry.parentPolicy declared).1
      | none => registry.items.find? name := by
  cases declaration with
  | item declaration =>
    simp only [merge, mergeItem, note, Table.find?_insert, Declaration.itemNamed?]
    by_cases own : declaration.name = name
    · subst own; simp
    · simp [own]
  | enumeration | collection | map => rfl
  | relation declaration => rw [merge, mergeRelation_eq]; rfl
  | atomic declaration => rw [merge, mergeAtomic_eq]; rfl

theorem find?_items_foldl_merge (declarations : List Declaration) (registry : Registry)
    (name : String) :
    (declarations.foldl merge registry).items.find? name =
      match declarations.filterMap (·.itemNamed? name) with
      | [] => registry.items.find? name
      | declared =>
          some (((registry.items.find? name).getD { name }).mergeAll registry.parentPolicy declared) := by
  induction declarations generalizing registry with
  | nil => rfl
  | cons declaration rest ih =>
    rw [List.foldl_cons, ih, parentPolicy_merge, find?_items_merge]
    cases own : declaration.itemNamed? name with
    | none => simp [own]
    | some declared =>
      cases later : rest.filterMap (·.itemNamed? name) <;> simp [own, later, Item.mergeAll]

/-- An item is there when it has an accepted declaration, and is then all of them merged. -/
theorem find?_items_ofDeclarations (settings : Settings) (declarations : List Declaration)
    (name : String) :
    (ofDeclarations settings declarations).items.find? name =
      match itemDeclarations declarations name with
      | [] => none
      | declared => some (Item.mergeAll settings.parentPolicy { name } declared) := by
  rw [ofDeclarations_eq_foldl, find?_items_foldl_merge]
  rfl

theorem relations_merge (registry : Registry) (declaration : Declaration) :
    (registry.merge declaration).relations =
      match declaration.relation? with
      | some declared => registry.relations.insertIfNew declared.name (.ofDeclaration declared)
      | none => registry.relations := by
  cases declaration with
  | item | enumeration | collection | map => rfl
  | relation declaration => rw [merge, mergeRelation_eq]; rfl
  | atomic declaration => rw [merge, mergeAtomic_eq]; rfl

theorem relations_foldl_merge (declarations : List Declaration) (registry : Registry) :
    (declarations.foldl merge registry).relations =
      registry.relations.insertAllIfNew ((declarations.filterMap (·.relation?)).map fun declared =>
        (declared.name, Relation.ofDeclaration declared)) := by
  induction declarations generalizing registry with
  | nil => rfl
  | cons declaration rest ih =>
    rw [List.foldl_cons, ih, relations_merge]
    cases own : declaration.relation? <;> simp [own, Table.insertAllIfNew]

/-- The relations are the first ones declared under each name, in the order of the names. -/
theorem entries_relations_ofDeclarations (settings : Settings) (declarations : List Declaration) :
    (ofDeclarations settings declarations).relations.entries =
      (firstOfEach RelationDeclaration.name (relationDeclarations declarations)).map fun declared =>
        (declared.name, Relation.ofDeclaration declared) := by
  have offered := relations_foldl_merge (declarations.filter (·.isAccepted)) (ofSettings settings)
  rw [ofDeclarations_eq_foldl, offered, Table.entries_insertAllIfNew, firstOfEach_map]
  simp [ofSettings, Table.empty, Table.contains, Table.find?, Table.lookup, Function.comp_def,
    relationDeclarations]

theorem values_relations_ofDeclarations (settings : Settings) (declarations : List Declaration) :
    (ofDeclarations settings declarations).relations.values =
      (firstOfEach RelationDeclaration.name (relationDeclarations declarations)).map
        Relation.ofDeclaration := by
  rw [Table.values, entries_relations_ofDeclarations, List.map_map]
  rfl

end Registry

end ItemSchema
