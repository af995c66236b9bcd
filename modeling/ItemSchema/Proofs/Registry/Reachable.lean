import ItemSchema.Proofs.Registry.Tables

/-! The registries that registering and clearing can lead to.

A cleared registry is an empty one under the policy it had, and one registration
after another is the registration of a list. So every registry that can be
reached is what a single list of declarations leaves.
-/

set_option autoImplicit false

namespace ItemSchema.Registry

inductive Reachable : Registry → Prop where
  | empty (settings : Settings) : Reachable (ofSettings settings)
  | register {registry merged : Registry} {declaration : Declaration} (reachable : Reachable registry)
      (registered : registry.register declaration = .ok merged) : Reachable merged
  | registerAll {registry : Registry} (reachable : Reachable registry)
      (declarations : List Declaration) : Reachable (registry.registerAll declarations).1
  | clear {registry : Registry} (reachable : Reachable registry) : Reachable registry.clear

/-- Only an accepted declaration is registered, and it is merged then. -/
theorem register_eq_ok_iff (registry merged : Registry) (declaration : Declaration) :
    registry.register declaration = .ok merged ↔
      declaration.isAccepted ∧ registry.merge declaration = merged := by
  cases accepted : declaration.isAccepted with
  | true => simp [register_of_accepted accepted]
  | false =>
    obtain ⟨error, failed⟩ := register_of_rejected accepted registry
    simp [failed]

theorem registerAll_ofDeclarations (settings : Settings) (first second : List Declaration) :
    ((ofDeclarations settings first).registerAll second).1 =
      ofDeclarations settings (first ++ second) := by
  simp [ofDeclarations_eq_foldl, registerAll_eq_foldl]

theorem Reachable.exists_eq_ofDeclarations {registry : Registry} (reachable : Reachable registry) :
    ∃ settings declarations, registry = ofDeclarations settings declarations := by
  induction reachable with
  | empty settings => exact ⟨settings, [], rfl⟩
  | @register _ merged declaration _ registered ih =>
    obtain ⟨settings, declarations, rfl⟩ := ih
    obtain ⟨accepted, merges⟩ := (register_eq_ok_iff _ _ _).mp registered
    refine ⟨settings, declarations ++ [declaration], ?_⟩
    rw [← registerAll_ofDeclarations, registerAll_eq_foldl]
    simp [accepted, merges]
  | registerAll _ more ih =>
    obtain ⟨settings, declarations, rfl⟩ := ih
    exact ⟨settings, declarations ++ more, registerAll_ofDeclarations settings declarations more⟩
  | @clear registry _ _ => exact ⟨{ parentPolicy := registry.parentPolicy }, [], rfl⟩

/-- No two items share a name. -/
theorem Reachable.nodup_keys_items {registry : Registry} (reachable : Reachable registry) :
    registry.items.keys.Nodup := by
  obtain ⟨settings, declarations, rfl⟩ := reachable.exists_eq_ofDeclarations
  obtain ⟨conflicts, filled⟩ := ofDeclarations_eq_revisedBy settings declarations
  rw [filled]
  exact Table.nodup_keys_foldl_revise _ _ _

/-- No two relations share a name. -/
theorem Reachable.nodup_keys_relations {registry : Registry} (reachable : Reachable registry) :
    registry.relations.keys.Nodup := by
  obtain ⟨settings, declarations, rfl⟩ := reachable.exists_eq_ofDeclarations
  obtain ⟨conflicts, filled⟩ := ofDeclarations_eq_revisedBy settings declarations
  rw [filled]
  exact Table.nodup_keys_foldl_revise _ _ _

theorem Reachable.keys_relations {registry : Registry} (reachable : Reachable registry) :
    registry.relations.keys = registry.relations.values.map Relation.name := by
  obtain ⟨settings, declarations, rfl⟩ := reachable.exists_eq_ofDeclarations
  simp [Table.keys, Table.values, entries_relations_ofDeclarations, Function.comp_def,
    Relation.ofDeclaration]

/-- Every relation is the one that is found under its name. -/
theorem Reachable.find?_relation {registry : Registry} (reachable : Reachable registry)
    {relation : Relation} (held : relation ∈ registry.relations.values) :
    registry.relations.find? relation.name = some relation := by
  have distinct := reachable.nodup_keys_relations
  obtain ⟨settings, declarations, rfl⟩ := reachable.exists_eq_ofDeclarations
  apply Table.find?_of_mem_entries distinct
  rw [values_relations_ofDeclarations] at held
  obtain ⟨declared, first, rfl⟩ := List.mem_map.mp held
  rw [entries_relations_ofDeclarations]
  exact List.mem_map.mpr ⟨declared, first, rfl⟩

theorem Reachable.exists_declared_relation {registry : Registry} (reachable : Reachable registry)
    {relation : Relation} (held : relation ∈ registry.relations.values) :
    ∃ declared, relation = .ofDeclaration declared := by
  obtain ⟨settings, declarations, rfl⟩ := reachable.exists_eq_ofDeclarations
  rw [values_relations_ofDeclarations] at held
  obtain ⟨declared, -, rfl⟩ := List.mem_map.mp held
  exact ⟨declared, rfl⟩

end ItemSchema.Registry
