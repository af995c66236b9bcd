import ItemSchema.Registry

/-! Registering a list of declarations merges the accepted ones in order, and nothing else.

Relations and atomic types are written once: a later declaration of the name leaves
the table as it is, and at most adds a conflict.
-/

set_option autoImplicit false

namespace ItemSchema.Registry

/-- The first declaration of a relation stands, and every later one is a conflict. -/
theorem mergeRelation_eq (registry : Registry) (declaration : RelationDeclaration) :
    registry.mergeRelation declaration =
      { registry with
        relations := registry.relations.insertIfNew declaration.name (.ofDeclaration declaration) }.note
        (.relation declaration)
        (if registry.relations.contains declaration.name then some .relation else none) := by
  unfold mergeRelation
  cases known : registry.relations.contains declaration.name <;>
    simp [note, Table.insertIfNew, known]

/-- The first declaration of an atomic type stands, and a later one with another parent is a
conflict. -/
theorem mergeAtomic_eq (registry : Registry) (declaration : AtomicType) :
    registry.mergeAtomic declaration =
      { registry with
        atomics := registry.atomics.insertIfNew declaration.className declaration }.note
        (.atomic declaration)
        (if (registry.atomics.find? declaration.className).any
            (fun known : AtomicType => known.parent ≠ declaration.parent) then some .atomic
        else none) := by
  unfold mergeAtomic
  cases known : registry.atomics.find? declaration.className with
  | none => simp [note, Table.insertIfNew, Table.contains, known]
  | some record =>
    by_cases same : record.parent = declaration.parent <;>
      simp [note, Table.insertIfNew, Table.contains, known, same]

theorem register_of_accepted {declaration : Declaration} (accepted : declaration.isAccepted)
    (registry : Registry) : registry.register declaration = .ok (registry.merge declaration) := by
  unfold register
  rw [Option.isNone_iff_eq_none.mp accepted]

theorem register_of_rejected {declaration : Declaration} (rejected : declaration.isAccepted = false)
    (registry : Registry) : ∃ error, registry.register declaration = .error error := by
  cases reason : declaration.rejection? with
  | none => simp [Declaration.isAccepted, reason] at rejected
  | some error => exact ⟨error, by simp [register, reason]⟩

theorem registerAll_eq_foldl (registry : Registry) (declarations : List Declaration) :
    (registry.registerAll declarations).1 =
      (declarations.filter (·.isAccepted)).foldl merge registry := by
  induction declarations generalizing registry with
  | nil => rfl
  | cons declaration rest ih =>
    cases accepted : declaration.isAccepted with
    | true => simp [registerAll, register_of_accepted accepted, accepted, ih]
    | false =>
      obtain ⟨error, failed⟩ := register_of_rejected accepted registry
      simp [registerAll, failed, accepted, ih]

/-- The registry after a list of declarations, from an empty one. -/
def ofDeclarations (settings : Settings) (declarations : List Declaration) : Registry :=
  ((ofSettings settings).registerAll declarations).1

theorem ofDeclarations_eq_foldl (settings : Settings) (declarations : List Declaration) :
    ofDeclarations settings declarations =
      (declarations.filter (·.isAccepted)).foldl merge (ofSettings settings) :=
  registerAll_eq_foldl (ofSettings settings) declarations

/-- Declarations that would be rejected may as well be left out. -/
theorem ofDeclarations_filter_isAccepted (settings : Settings) (declarations : List Declaration) :
    ofDeclarations settings (declarations.filter (·.isAccepted)) =
      ofDeclarations settings declarations := by
  simp [ofDeclarations_eq_foldl]

end ItemSchema.Registry
