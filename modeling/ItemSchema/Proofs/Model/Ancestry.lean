import ItemSchema.Model.Ancestry
import ItemSchema.Proofs.Registry.Reachable

/-! The items of a model and the chains they form.

Every item is held under its own name, also the synthesized ones. So every level
of a chain is the item that the model holds under the name of that level.
-/

set_option autoImplicit false

namespace ItemSchema.Model

/-- An item of a model is one of the registry, unless it is synthesized under a name that the registry
does not have. -/
theorem registered_or_synthesized {settings : Settings} {registry : Registry} {generation : Generation}
    {name : String} {item : Item}
    (found : (build settings registry generation).items.find? name = some item) :
    registry.items.find? name = some item ∨
      (registry.items.find? name = none ∧ ∃ parent, item = { name, parent, synthetic := true }) := by
  simp only [build] at found
  split at found
  · simp only [synthesize, Table.find?_insertIfNew] at found
    cases registered : registry.items.find? name with
    | some known =>
      -- a declared item hides both synthesized ones
      rw [registered] at found
      exact .inl found
    | none =>
      by_cases root : settings.rootName = name
      · simp only [registered, root] at found
        cases found
        exact .inr ⟨rfl, none, rfl⟩
      · by_cases link : settings.linkName = name
        · simp only [registered, root, link] at found
          cases found
          exact .inr ⟨rfl, some settings.rootName, rfl⟩
        · simp [registered, root, link] at found
  · exact .inl found

/-- An item of a model is one of the registry, unless it is a bare synthesized one under a name that
the registry does not have. -/
theorem registered_or_bare {settings : Settings} {registry : Registry} {generation : Generation}
    {name : String} {item : Item}
    (found : (build settings registry generation).items.find? name = some item) :
    registry.items.find? name = some item ∨
      (registry.items.find? name = none ∧ item.name = name ∧ item.attributes = .empty) := by
  rcases registered_or_synthesized found with registered | ⟨unregistered, parent, rfl⟩
  · exact .inl registered
  · exact .inr ⟨unregistered, rfl, rfl⟩

/-- An item of a model comes from its declarations, unless it is a bare synthesized one that
has none. -/
theorem find?_items_build_cases {settings : Settings} {declarations : List Declaration}
    {generation : Generation} {name : String} {item : Item}
    (found : (build settings (Registry.ofDeclarations settings declarations) generation).items.find? name =
      some item) :
    item = Item.mergeAll settings.parentPolicy { name } (itemDeclarations declarations name) ∨
      (itemDeclarations declarations name = [] ∧ item.name = name ∧ item.attributes = .empty) := by
  have declared := Registry.find?_items_ofDeclarations settings declarations name
  rcases registered_or_bare found with registered | ⟨unregistered, bare⟩
  · rw [registered] at declared
    split at declared
    · cases declared
    · exact .inl (Option.some.inj declared)
  · rw [unregistered] at declared
    split at declared
    · next none => exact .inr ⟨none, bare⟩
    · cases declared

def KeyedByName (items : Table String Item) : Prop :=
  ∀ name item, items.find? name = some item → item.name = name

theorem keyedByName_of_reachable {registry : Registry} (reachable : registry.Reachable) :
    KeyedByName registry.items := by
  obtain ⟨settings, declarations, rfl⟩ := reachable.exists_eq_ofDeclarations
  intro name item found
  rw [Registry.find?_items_ofDeclarations] at found
  split at found
  · cases found
  · cases found
    exact Item.name_mergeAll _ _ _

/-- The settings of the model need not be those that the registry was made with. -/
theorem keyedByName_build_of_reachable (settings : Settings) {registry : Registry}
    (reachable : registry.Reachable) (generation : Generation) :
    KeyedByName (build settings registry generation).items := by
  intro name item found
  rcases registered_or_bare found with registered | ⟨-, named, -⟩
  · exact keyedByName_of_reachable reachable name item registered
  · exact named

theorem keyedByName_build (settings : Settings) (declarations : List Declaration)
    (generation : Generation) :
    KeyedByName (build settings (Registry.ofDeclarations settings declarations) generation).items :=
  keyedByName_build_of_reachable settings ((Registry.Reachable.empty settings).registerAll declarations)
    generation

/-- The models there can be: the initial one, and those built from the registries there can be. -/
inductive Reachable : Model → Prop where
  | initial (settings : Settings) : Reachable (initial settings)
  | build (settings : Settings) {registry : Registry} (reachable : registry.Reachable)
      (generation : Generation) : Reachable (build settings registry generation)

theorem Reachable.keyedByName {model : Model} (reachable : model.Reachable) :
    KeyedByName model.items := by
  cases reachable with
  | initial => exact fun name item found => by cases found
  | build settings reachable generation =>
    exact keyedByName_build_of_reachable settings reachable generation

theorem Reachable.nodup_keys_items {model : Model} (reachable : model.Reachable) :
    model.items.keys.Nodup := by
  cases reachable with
  | initial => exact List.nodup_nil
  | build settings reachable generation =>
    have distinct := reachable.nodup_keys_items
    simp only [Model.build]
    split
    · exact Table.nodup_keys_insertIfNew (Table.nodup_keys_insertIfNew distinct _ _) _ _
    · exact distinct

/-- Every item of a model is the one that the model finds under the name of the item. -/
theorem Reachable.find?_name {model : Model} (reachable : model.Reachable) {item : Item}
    (member : item ∈ model.items.values) : model.items.find? item.name = some item := by
  obtain ⟨⟨key, held⟩, entry, rfl⟩ := List.mem_map.mp member
  have found := Table.find?_of_mem_entries reachable.nodup_keys_items entry
  rw [reachable.keyedByName key held found, found]

theorem nextUp?_eq_some_iff {model : Model} (keyed : KeyedByName model.items) (visited : List String)
    (item parent : Item) :
    model.nextUp? visited item = some parent ↔
      item.parentName? model.rootName = some parent.name ∧ parent.name ∉ visited ∧
        model.items.find? parent.name = some parent := by
  simp only [nextUp?, Option.bind_eq_some_iff, Option.ite_none_left_eq_some]
  constructor
  · rintro ⟨name, above, unmet, found⟩
    cases keyed name parent found
    exact ⟨above, unmet, found⟩
  · rintro ⟨above, unmet, found⟩
    exact ⟨parent.name, above, unmet, found⟩

/-- Every level above an item of the model is an item of the model. -/
theorem find?_of_mem_climb {model : Model} (keyed : KeyedByName model.items) (steps : Nat)
    (visited : List String) {item level : Item} (known : model.items.find? item.name = some item)
    (member : level ∈ model.climb steps visited item) :
    model.items.find? level.name = some level := by
  induction steps generalizing visited item with
  | zero =>
    simp only [climb, List.mem_singleton] at member
    rw [member, known]
  | succ steps ih =>
    simp only [climb, List.mem_cons] at member
    rcases member with same | above
    · rw [same, known]
    · cases up : model.nextUp? visited item with
      | none => simp [up] at above
      | some parent =>
        rw [up] at above
        obtain ⟨_, _, found⟩ := (nextUp?_eq_some_iff keyed _ _ _).mp up
        exact ih _ found above

theorem find?_of_mem_ancestryOf {model : Model} (keyed : KeyedByName model.items) {name : String}
    {level : Item} (member : level ∈ model.ancestryOf name) :
    model.items.find? level.name = some level := by
  unfold ancestryOf at member
  cases found : model.items.find? name with
  | none => simp [found] at member
  | some item =>
    rw [found] at member
    have known : model.items.find? item.name = some item := by rw [keyed name item found, found]
    exact find?_of_mem_climb keyed _ _ known member

theorem levels_eq_take (model : Model) (item : Item) (inherited : Bool) :
    model.levels item inherited =
      if inherited then model.ancestry item else (model.ancestry item).take 1 := by
  obtain ⟨rest, chain⟩ := model.climb_eq_cons model.items.size [item.name] item
  cases inherited with
  | true => rfl
  | false => simp [levels, ancestry, chain]

theorem mem_ancestry_of_mem_levels {model : Model} {item level : Item} {inherited : Bool}
    (member : level ∈ model.levels item inherited) : level ∈ model.ancestry item := by
  rw [levels_eq_take] at member
  cases inherited with
  | true => exact member
  | false => exact List.mem_of_mem_take member

end ItemSchema.Model
