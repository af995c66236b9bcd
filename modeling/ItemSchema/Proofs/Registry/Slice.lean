import ItemSchema.Proofs.Registry.Registration
import ItemSchema.Proofs.Table

/-! One record of a registry, seen apart from all others.

A declaration reads and writes nothing of a registry but the record of its own
kind and name and the conflicts about it. So the slice of a registry under a kind
and a name depends only on the declarations of that kind and name.
-/

set_option autoImplicit false

namespace ItemSchema

def Declaration.isOf (declaration : Declaration) (kind : DeclarationKind) (name : String) : Bool :=
  declaration.kind = kind && declaration.name = name

def Conflict.isOf (conflict : Conflict) (kind : DeclarationKind) (name : String) : Bool :=
  conflict.kind = kind && conflict.name = name

namespace Registry

/-- What a registry holds of one record, and the conflicts about it. -/
def slice (registry : Registry) (kind : DeclarationKind) (name : String) : Registry where
  parentPolicy := registry.parentPolicy
  items := if kind = .item then registry.items.slice name else .empty
  enumerations := if kind = .enumeration then registry.enumerations.slice name else .empty
  relations := if kind = .relation then registry.relations.slice name else .empty
  collections := if kind = .collection then registry.collections.slice name else .empty
  atomics := if kind = .atomic then registry.atomics.slice name else .empty
  maps := if kind = .map then registry.maps.slice name else .empty
  conflicts := registry.conflicts.filter (·.isOf kind name)

theorem slice_note_self (registry : Registry) (declaration : Declaration)
    (disagreement : Option Disagreement) :
    (registry.note declaration disagreement).slice declaration.kind declaration.name =
      (registry.slice declaration.kind declaration.name).note declaration disagreement := by
  cases disagreement <;> simp [note, slice, Conflict.isOf]

theorem slice_note_of_other (registry : Registry) {declaration : Declaration}
    {kind : DeclarationKind} {name : String} (other : declaration.isOf kind name = false)
    (disagreement : Option Disagreement) :
    (registry.note declaration disagreement).slice kind name = registry.slice kind name := by
  have unrelated : ¬ (declaration.kind = kind ∧ declaration.name = name) := by
    simpa [Declaration.isOf] using other
  cases disagreement <;> simp [note, slice, Conflict.isOf, unrelated]

/-- A declaration merges into the slice of its own record as into the whole registry. -/
theorem slice_merge_self (registry : Registry) (declaration : Declaration) :
    (registry.merge declaration).slice declaration.kind declaration.name =
      (registry.slice declaration.kind declaration.name).merge declaration := by
  cases declaration with
  | item declaration =>
    simp only [merge, mergeItem]
    rw [slice_note_self]
    simp [slice, Declaration.kind, Declaration.name]
  | enumeration declaration =>
    simp [merge, mergeEnumeration, slice, Declaration.kind, Declaration.name]
  | relation declaration =>
    simp only [merge, mergeRelation_eq]
    rw [slice_note_self]
    simp [slice, Declaration.kind, Declaration.name, Table.slice_insertIfNew]
  | collection declaration =>
    simp [merge, mergeCollection, slice, Declaration.kind, Declaration.name]
  | atomic declaration =>
    simp only [merge, mergeAtomic_eq]
    rw [slice_note_self]
    simp [slice, Declaration.kind, Declaration.name, Table.slice_insertIfNew]
  | map declaration =>
    simp only [merge, mergeMap]
    rw [slice_note_self]
    simp [slice, Declaration.kind, Declaration.name]

/-- Writing to the table of one kind does not show in slices of another kind or name. -/
theorem slice_insert_of_other {α : Type} (table : Table String α) (own : DeclarationKind)
    (key : String) {kind : DeclarationKind} {name : String} (distinct : kind = own → key ≠ name)
    (value : α) :
    (if kind = own then (table.insert key value).slice name else .empty) =
      if kind = own then table.slice name else .empty := by
  split
  · next same => exact table.slice_insert_of_ne (distinct same) value
  · rfl

/-- A declaration leaves the slices of all other records as they are. -/
theorem slice_merge_of_other (registry : Registry) {declaration : Declaration}
    {kind : DeclarationKind} {name : String} (other : declaration.isOf kind name = false) :
    (registry.merge declaration).slice kind name = registry.slice kind name := by
  have distinct : kind = declaration.kind → declaration.name ≠ name := by
    intro sameKind sameName
    simp [Declaration.isOf, sameKind, sameName] at other
  cases declaration with
  | item declaration =>
    simp only [merge, mergeItem]
    rw [slice_note_of_other _ other]
    simp only [slice, slice_insert_of_other registry.items .item declaration.name distinct]
  | enumeration declaration =>
    simp only [merge, mergeEnumeration, slice,
      slice_insert_of_other registry.enumerations .enumeration declaration.name distinct]
  | relation declaration =>
    simp only [merge, mergeRelation]
    split
    · exact slice_note_of_other registry other _
    · simp only [slice, slice_insert_of_other registry.relations .relation declaration.name distinct]
  | collection declaration =>
    simp only [merge, mergeCollection, slice,
      slice_insert_of_other registry.collections .collection declaration.name distinct]
  | atomic declaration =>
    simp only [merge, mergeAtomic]
    split
    · split
      · rfl
      · exact slice_note_of_other registry other _
    · simp only [slice, slice_insert_of_other registry.atomics .atomic declaration.className distinct]
  | map declaration =>
    simp only [merge, mergeMap]
    rw [slice_note_of_other _ other]
    simp only [slice, slice_insert_of_other registry.maps .map declaration.name distinct]

theorem slice_merge (registry : Registry) (declaration : Declaration) (kind : DeclarationKind)
    (name : String) :
    (registry.merge declaration).slice kind name =
      if declaration.isOf kind name then (registry.slice kind name).merge declaration
      else registry.slice kind name := by
  cases own : declaration.isOf kind name with
  | false => exact slice_merge_of_other registry own
  | true =>
    obtain ⟨rfl, rfl⟩ : declaration.kind = kind ∧ declaration.name = name := by
      simpa [Declaration.isOf] using own
    exact slice_merge_self registry declaration

/-- The slice of a record is what the declarations of that record alone make of it. -/
theorem slice_foldl_merge (declarations : List Declaration) (registry : Registry)
    (kind : DeclarationKind) (name : String) :
    (declarations.foldl merge registry).slice kind name =
      (declarations.filter (·.isOf kind name)).foldl merge (registry.slice kind name) := by
  induction declarations generalizing registry with
  | nil => rfl
  | cons declaration rest ih =>
    rw [List.foldl_cons, ih, slice_merge]
    cases own : declaration.isOf kind name <;> simp [own]

theorem slice_ofSettings (settings : Settings) (kind : DeclarationKind) (name : String) :
    (ofSettings settings).slice kind name = ofSettings settings := by
  have empty : ∀ {α : Type}, (Table.empty : Table String α).slice name = .empty := rfl
  simp [slice, ofSettings, empty]

theorem slice_ofDeclarations (settings : Settings) (declarations : List Declaration)
    (kind : DeclarationKind) (name : String) :
    (ofDeclarations settings declarations).slice kind name =
      ofDeclarations settings (declarations.filter (·.isOf kind name)) := by
  rw [ofDeclarations_eq_foldl, ofDeclarations_eq_foldl, slice_foldl_merge, slice_ofSettings,
    List.filter_comm]

end Registry

end ItemSchema
