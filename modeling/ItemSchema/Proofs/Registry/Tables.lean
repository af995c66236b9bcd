import ItemSchema.Proofs.Registry.Records
import ItemSchema.Proofs.Table.Collected

/-! The six tables of a registry, each filled from the declarations of its own kind.

A declaration revises the record of its name in the table of its kind, and what it
disagrees with shows in the conflicts only. So every table is what the accepted
declarations of the kind, one after another, make of an empty one.
-/

set_option autoImplicit false

namespace ItemSchema

namespace Declaration

def item? : Declaration → Option ItemDeclaration
  | .item declaration => some declaration
  | _ => none

def enumeration? : Declaration → Option EnumerationDeclaration
  | .enumeration declaration => some declaration
  | _ => none

def collection? : Declaration → Option CollectionType
  | .collection declaration => some declaration
  | _ => none

def atomic? : Declaration → Option AtomicType
  | .atomic declaration => some declaration
  | _ => none

def map? : Declaration → Option MapType
  | .map declaration => some declaration
  | _ => none

end Declaration

/-- The accepted declarations of one kind, in order. -/
def acceptedOf {σ : Type} (ofKind? : Declaration → Option σ) (declarations : List Declaration) : List σ :=
  (declarations.filter (·.isAccepted)).filterMap ofKind?

namespace Registry

/-- Every table revised by the declarations of its kind, and nothing noted. -/
def revisedBy (registry : Registry) (declarations : List Declaration) : Registry :=
  { registry with
    items := (declarations.filterMap (·.item?)).foldl
      (Table.revise (·.name) fun known declared =>
        ((known.getD { name := declared.name }).merge registry.parentPolicy declared).1) registry.items
    enumerations := (declarations.filterMap (·.enumeration?)).foldl
      (Table.revise (·.name) fun known declared =>
        (known.getD { name := declared.name }).merge declared) registry.enumerations
    relations := (declarations.filterMap (·.relation?)).foldl
      (Table.revise (·.name) fun known declared => known.getD (.ofDeclaration declared))
      registry.relations
    collections := (declarations.filterMap (·.collection?)).foldl
      (Table.revise (·.name) fun _ declared => declared) registry.collections
    atomics := (declarations.filterMap (·.atomic?)).foldl
      (Table.revise (·.className) fun known declared => known.getD declared) registry.atomics
    maps := (declarations.filterMap (·.map?)).foldl
      (Table.revise (·.name) fun known declared =>
        (known.getD { name := declared.name }).fill declared) registry.maps }

theorem merge_eq_revisedBy (registry : Registry) (declaration : Declaration) :
    ∃ conflicts, registry.merge declaration = { registry.revisedBy [declaration] with conflicts } := by
  cases declaration with
  | item | enumeration | collection | map => exact ⟨_, rfl⟩
  | relation declaration =>
    rw [merge, mergeRelation_eq, Table.insertIfNew_eq_insert]
    exact ⟨_, rfl⟩
  | atomic declaration =>
    rw [merge, mergeAtomic_eq, Table.insertIfNew_eq_insert]
    exact ⟨_, rfl⟩

theorem foldl_merge_eq_revisedBy (declarations : List Declaration) (registry : Registry) :
    ∃ conflicts,
      declarations.foldl merge registry = { registry.revisedBy declarations with conflicts } := by
  induction declarations generalizing registry with
  | nil => exact ⟨_, rfl⟩
  | cons declaration rest ih =>
    obtain ⟨noted, first⟩ := merge_eq_revisedBy registry declaration
    obtain ⟨conflicts, later⟩ := ih (registry.merge declaration)
    refine ⟨conflicts, ?_⟩
    -- the conflicts noted on the way are lost, but no table reads them
    rw [List.foldl_cons, later, first]
    simp only [revisedBy, ← List.foldl_append, ← List.filterMap_append, List.singleton_append]

theorem ofDeclarations_eq_revisedBy (settings : Settings) (declarations : List Declaration) :
    ∃ conflicts, ofDeclarations settings declarations =
      { (ofSettings settings).revisedBy (declarations.filter (·.isAccepted)) with conflicts } := by
  rw [ofDeclarations_eq_foldl]
  exact foldl_merge_eq_revisedBy _ _

end Registry

end ItemSchema
