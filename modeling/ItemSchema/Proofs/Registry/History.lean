import ItemSchema.Proofs.Registry.Reachable
import Mathlib.Data.Finset.Card

/-! What a history of operations leaves in a registry.

Clearing forgets all declarations before it, and a rejected one counts for nothing. So
a history leaves what the declarations since the last clearing leave, and each table
has as many records as there are distinct names among those of its kind.
-/

set_option autoImplicit false

namespace ItemSchema

namespace Registry

inductive Operation where
  | register (declaration : Declaration)
  | registerAll (declarations : List Declaration)
  | clear

/-- The registry after an operation; a registration that fails leaves it as it was. -/
def perform (registry : Registry) : Operation → Registry
  | .register declaration =>
      match registry.register declaration with
      | .ok merged => merged
      | .error _ => registry
  | .registerAll declarations => (registry.registerAll declarations).1
  | .clear => registry.clear

def run (settings : Settings) (operations : List Operation) : Registry :=
  operations.foldl perform (ofSettings settings)

/-- The declarations that have not been cleared away, with those of one more operation. -/
def Operation.offer (declared : List Declaration) : Operation → List Declaration
  | .register declaration => declared ++ [declaration]
  | .registerAll declarations => declared ++ declarations
  | .clear => []

/-- The declarations offered since the registry was last cleared, in order. -/
def sinceClear (operations : List Operation) : List Declaration :=
  operations.foldl Operation.offer []

theorem parentPolicy_ofDeclarations (settings : Settings) (declarations : List Declaration) :
    (ofDeclarations settings declarations).parentPolicy = settings.parentPolicy := by
  obtain ⟨conflicts, filled⟩ := ofDeclarations_eq_revisedBy settings declarations
  rw [filled]
  rfl

theorem perform_register (registry : Registry) (declaration : Declaration) :
    registry.perform (.register declaration) = (registry.registerAll [declaration]).1 := by
  cases accepted : declaration.isAccepted with
  | true => simp [perform, registerAll, register_of_accepted accepted]
  | false =>
    obtain ⟨error, failed⟩ := register_of_rejected accepted registry
    simp [perform, registerAll, failed]

theorem perform_ofDeclarations (settings : Settings) (declared : List Declaration)
    (operation : Operation) :
    (ofDeclarations settings declared).perform operation =
      ofDeclarations settings (operation.offer declared) := by
  cases operation with
  | register declaration => rw [perform_register, registerAll_ofDeclarations, Operation.offer]
  | registerAll declarations => exact registerAll_ofDeclarations settings declared declarations
  | clear =>
    rw [perform, Registry.clear, parentPolicy_ofDeclarations]
    rfl

/-- Nothing is left of what was registered before the last clearing. -/
theorem run_eq_ofDeclarations (settings : Settings) (operations : List Operation) :
    run settings operations = ofDeclarations settings (sinceClear operations) := by
  have start : ofSettings settings = ofDeclarations settings [] := rfl
  rw [run, start]
  exact List.foldl_hom (ofDeclarations settings) (perform_ofDeclarations settings)

theorem reachable_run (settings : Settings) (operations : List Operation) :
    (run settings operations).Reachable := by
  rw [run_eq_ofDeclarations]
  exact (Reachable.empty settings).registerAll _

theorem rejected_of_register_eq_error {registry : Registry} {declaration : Declaration} {error : BlankName}
    (failed : registry.register declaration = .error error) : declaration.isAccepted = false := by
  cases accepted : declaration.isAccepted with
  | false => rfl
  | true =>
    rw [register_of_accepted accepted] at failed
    cases failed

/-- A rejected declaration may as well not stand in a list. -/
theorem registerAll_of_rejected {declaration : Declaration} (rejected : declaration.isAccepted = false)
    (registry : Registry) (before after : List Declaration) :
    (registry.registerAll (before ++ declaration :: after)).1 =
      (registry.registerAll (before ++ after)).1 := by
  simp [registerAll_eq_foldl, rejected]

end Registry

/-- The distinct names under which declarations of a kind were accepted. -/
def acceptedNames (kind : DeclarationKind) (declarations : List Declaration) : Finset String :=
  ((declarations.filter fun declaration => declaration.isAccepted && declaration.kind = kind).map
    (·.name)).toFinset

namespace Table

variable {σ α : Type} {kind : DeclarationKind} {ofKind? : Declaration → Option σ} {nameOf : σ → String}

/-- A table filled from the accepted declarations of a kind has their names as keys. -/
theorem toFinset_keys_accepted
    (picks : ∀ declaration : Declaration, (ofKind? declaration).map nameOf =
      if declaration.kind = kind then some declaration.name else none)
    (update : Option α → σ → α) (declarations : List Declaration) :
    (((declarations.filter (·.isAccepted)).filterMap ofKind?).foldl (revise nameOf update)
      empty).keys.toFinset = acceptedNames kind declarations := by
  have picked : (fun declaration => (ofKind? declaration).map nameOf) = fun declaration : Declaration =>
      if declaration.kind = kind then some declaration.name else none := funext picks
  rw [keys_foldl_revise, List.map_filterMap, picked]
  ext name
  simp [acceptedNames, and_assoc]

theorem size_accepted
    (picks : ∀ declaration : Declaration, (ofKind? declaration).map nameOf =
      if declaration.kind = kind then some declaration.name else none)
    (update : Option α → σ → α) (declarations : List Declaration) :
    (((declarations.filter (·.isAccepted)).filterMap ofKind?).foldl (revise nameOf update) empty).size =
      (acceptedNames kind declarations).card := by
  have distinct := nodup_keys_foldl_revise nameOf update
    ((declarations.filter (·.isAccepted)).filterMap ofKind?)
  rw [← toFinset_keys_accepted picks update, List.toFinset_card_of_nodup distinct, length_keys]

end Table

namespace Registry

/-- How many records of a kind there are. -/
def count (registry : Registry) : DeclarationKind → Nat
  | .item => registry.items.size
  | .enumeration => registry.enumerations.size
  | .relation => registry.relations.size
  | .collection => registry.collections.size
  | .atomic => registry.atomics.size
  | .map => registry.maps.size

theorem count_ofDeclarations (settings : Settings) (declarations : List Declaration)
    (kind : DeclarationKind) :
    (ofDeclarations settings declarations).count kind = (acceptedNames kind declarations).card := by
  obtain ⟨conflicts, filled⟩ := ofDeclarations_eq_revisedBy settings declarations
  rw [filled]
  cases kind <;>
    exact Table.size_accepted (fun declaration => by cases declaration <;> rfl) _ declarations

theorem contains_items_ofDeclarations (settings : Settings) (declarations : List Declaration)
    (name : String) :
    (ofDeclarations settings declarations).items.contains name ↔
      name ∈ acceptedNames .item declarations := by
  have names : (ofDeclarations settings declarations).items.keys.toFinset =
      acceptedNames .item declarations := by
    obtain ⟨conflicts, filled⟩ := ofDeclarations_eq_revisedBy settings declarations
    rw [filled]
    exact Table.toFinset_keys_accepted (fun declaration => by cases declaration <;> rfl) _ declarations
  rw [Table.contains_iff_mem_keys, ← List.mem_toFinset, names]

end Registry

end ItemSchema
