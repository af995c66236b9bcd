import ItemSchema.Proofs.Model.Ancestry
import ItemSchema.Proofs.Registry.History
import ItemSchema.Proofs.Registry.WellKept

/-! What every model keeps to, and the items it adds to those of its registry.

A model has the tables of its registry. Behind the declared items stand those that are
synthesized: the root and then the link item, each unless it is there already, so
that only one is added where both have the same name.
-/

set_option autoImplicit false

namespace ItemSchema

/-- An item that a model adds under a configured name, with nothing but a parent. -/
structure Item.IsBuiltinUnder (model : Model) (name : String) (item : Item) : Prop where
  configured : name = model.rootName ∨ name = model.linkName
  bare : item =
    { name, parent := if name = model.rootName then none else some model.rootName, synthetic := true }

namespace Model

/-- Every table is kept as in a registry, apart from the items that the model adds. -/
structure WellKept (model : Model) : Prop where
  items : model.items.Keeps fun name item => item.IsKeptUnder name ∨ item.IsBuiltinUnder model name
  enumerations : model.enumerations.Keeps Enumeration.IsKeptUnder
  relations : model.relations.Keeps Relation.IsKeptUnder
  collections : model.collections.Keeps (HeldUnder CollectionType.name)
  atomics : model.atomics.Keeps (HeldUnder AtomicType.className)
  maps : model.maps.Keeps (HeldUnder MapType.name)

theorem WellKept.attributes {model : Model} (kept : model.WellKept) {name : String} {item : Item}
    (found : model.items.find? name = some item) :
    item.attributes.Keeps (Attribute.IsKeptUnder item.name) := by
  rcases kept.items.find? found with declared | builtin
  · exact declared.attributes
  · rw [builtin.bare]
    exact Table.keeps_empty

theorem WellKept.indexes {model : Model} (kept : model.WellKept) {name : String} {item : Item}
    (found : model.items.find? name = some item) : item.indexes.Keeps (HeldTrimmed Index.name) := by
  rcases kept.items.find? found with declared | builtin
  · exact declared.indexes
  · rw [builtin.bare]
    exact Table.keeps_empty

/-- The items of which there is no declaration. -/
def synthesized (model : Model) : List Item := model.items.values.filter (·.synthetic)

/-- How many records of a kind there are. -/
def count (model : Model) : DeclarationKind → Nat
  | .item => model.items.size
  | .enumeration => model.enumerations.size
  | .relation => model.relations.size
  | .collection => model.collections.size
  | .atomic => model.atomics.size
  | .map => model.maps.size

/-- The items offered to every table of items, in order. -/
def builtins (settings : Settings) : List (String × Item) :=
  if settings.synthesize then
    [(settings.rootName, { name := settings.rootName, synthetic := true }),
      (settings.linkName,
        { name := settings.linkName, parent := some settings.rootName, synthetic := true })]
  else []

/-- The items that a model adds to those of a registry. -/
def added (settings : Settings) (registry : Registry) : List (String × Item) :=
  (firstOfEach Prod.fst (builtins settings)).filter (!registry.items.contains ·.1)

section Build

variable (settings : Settings) (registry : Registry) (generation : Generation)

theorem items_build :
    (build settings registry generation).items = registry.items.insertAllIfNew (builtins settings) := by
  simp only [build, builtins]
  split <;> rfl

theorem entries_items_build :
    (build settings registry generation).items.entries =
      registry.items.entries ++ added settings registry := by
  rw [items_build, Table.entries_insertAllIfNew, added]

theorem mem_added_iff (name : String) (item : Item) :
    (name, item) ∈ added settings registry ↔
      (settings.synthesize ∧ (name = settings.rootName ∨ name = settings.linkName) ∧
        registry.items.contains name = false) ∧
      item = { name, parent := if name = settings.rootName then none else some settings.rootName,
               synthetic := true } := by
  unfold added builtins
  split
  · next on =>
    -- the link item is offered in vain where the root has its name
    by_cases atRoot : name = settings.rootName
    · grind [firstOfEach]
    · by_cases atLink : name = settings.linkName
      · grind [firstOfEach]
      · simp [firstOfEach, atRoot, atLink]
  · next off => simp [firstOfEach, off]

theorem contains_items_build (name : String) :
    (build settings registry generation).items.contains name ↔
      registry.items.contains name ∨
        settings.synthesize ∧ (name = settings.rootName ∨ name = settings.linkName) := by
  rw [Table.contains_iff_mem_keys, Table.keys, entries_items_build, List.map_append, List.mem_append,
    ← Table.keys, ← Table.contains_iff_mem_keys]
  have isAdded : name ∈ (added settings registry).map Prod.fst ↔
      settings.synthesize ∧ (name = settings.rootName ∨ name = settings.linkName) ∧
        registry.items.contains name = false := by
    simp [mem_added_iff]
  rw [isAdded]
  cases registry.items.contains name <;> simp

variable {registry}

theorem wellKept_build (kept : registry.WellKept) : (build settings registry generation).WellKept where
  items.distinct := by
    have keys : registry.items.Keeps fun _ _ => True := kept.items.mono fun _ _ _ => trivial
    rw [items_build]
    exact (keys.insertAllIfNew fun _ _ => trivial).distinct
  items.allowed entry member := by
    rw [entries_items_build] at member
    rcases List.mem_append.mp member with declared | isAdded
    · exact .inl (kept.items.allowed entry declared)
    · obtain ⟨⟨-, configured, -⟩, bare⟩ := (mem_added_iff settings registry _ _).mp isAdded
      exact .inr ⟨configured, bare⟩
  enumerations := kept.enumerations
  relations := kept.relations
  collections := kept.collections
  atomics := kept.atomics
  maps := kept.maps

theorem Reachable.wellKept {model : Model} (reachable : model.Reachable) : model.WellKept := by
  cases reachable with
  | initial settings =>
    exact ⟨Table.keeps_empty, Table.keeps_empty, Table.keeps_empty, Table.keeps_empty, Table.keeps_empty,
      Table.keeps_empty⟩
  | build settings reachable generation => exact wellKept_build settings generation reachable.wellKept

theorem find?_items_build_of_registered (kept : registry.WellKept) {name : String} {item : Item}
    (found : registry.items.find? name = some item) :
    (build settings registry generation).items.find? name = some item := by
  apply Table.find?_of_mem_entries (wellKept_build settings generation kept).items.distinct
  rw [entries_items_build]
  exact List.mem_append_left _ (Table.mem_entries_of_find? found)

theorem synthesized_build (kept : registry.WellKept) :
    (build settings registry generation).synthesized = (added settings registry).map Prod.snd := by
  have declared : (registry.items.entries.map Prod.snd).filter (·.synthetic) = [] := by
    rw [List.filter_eq_nil_iff]
    intro item member
    obtain ⟨entry, held, rfl⟩ := List.mem_map.mp member
    simp [(kept.items.allowed entry held).declared]
  have bare : ((added settings registry).map Prod.snd).filter (·.synthetic) =
      (added settings registry).map Prod.snd := by
    rw [List.filter_eq_self]
    intro item member
    obtain ⟨⟨name, _⟩, isAdded, rfl⟩ := List.mem_map.mp member
    rw [((mem_added_iff settings registry _ _).mp isAdded).2]
  rw [synthesized, Table.values, entries_items_build, List.map_append, List.filter_append, declared, bare,
    List.nil_append]

theorem mem_names_synthesized_build (kept : registry.WellKept) (name : String) :
    name ∈ (build settings registry generation).synthesized.map (·.name) ↔
      settings.synthesize ∧ (name = settings.rootName ∨ name = settings.linkName) ∧
        registry.items.contains name = false := by
  rw [synthesized_build settings generation kept]
  simp only [List.mem_map, Prod.exists, exists_eq_right, mem_added_iff]
  constructor
  · rintro ⟨item, ⟨held, offered, rfl⟩, rfl⟩
    exact offered
  · intro offered
    exact ⟨_, ⟨name, offered, rfl⟩, rfl⟩

theorem count_build (kept : registry.WellKept) (kind : DeclarationKind) :
    (build settings registry generation).count kind =
      registry.count kind +
        if kind = .item then (build settings registry generation).synthesized.length else 0 := by
  cases kind with
  | item =>
    rw [if_pos rfl, synthesized_build settings generation kept, List.length_map]
    exact (congrArg List.length (entries_items_build settings registry generation)).trans
      List.length_append
  | enumeration | relation | collection | atomic | map => rfl

end Build

/-- Whatever is registered and cleared, every record of the registry and of each model built from it
stands under its own name, once, with no blank name in it. There are as many records of a kind as
distinct names were accepted since the last clearing, and a model has besides only the items it
synthesizes: under the configured names, where these are not declared. A registration that fails changes
nothing. No declared item is replaced, and where items are synthesized the root and the link item
are there. -/
theorem tables_wellKept_after_operations (settings : Settings) (operations : List Registry.Operation)
    (modelSettings : Settings) (generation : Generation) :
    let registry := Registry.run settings operations
    let declared := Registry.sinceClear operations
    let model := build modelSettings registry generation
    registry.WellKept ∧ model.WellKept ∧
    (∀ kind, registry.count kind = (acceptedNames kind declared).card) ∧
    registry.size =
      (acceptedNames .item declared).card + (acceptedNames .enumeration declared).card +
        (acceptedNames .relation declared).card + (acceptedNames .collection declared).card +
        (acceptedNames .atomic declared).card + (acceptedNames .map declared).card ∧
    (∀ kind, model.count kind =
      (acceptedNames kind declared).card + if kind = .item then model.synthesized.length else 0) ∧
    (∀ name, name ∈ model.synthesized.map (·.name) ↔
      modelSettings.synthesize ∧
        (name = modelSettings.rootName ∨ name = modelSettings.linkName) ∧
        name ∉ acceptedNames .item declared) ∧
    (∀ declaration error, registry.register declaration = .error error →
      registry.perform (.register declaration) = registry ∧
        ∀ before after, (registry.registerAll (before ++ declaration :: after)).1 =
          (registry.registerAll (before ++ after)).1) ∧
    (∀ name item, registry.items.find? name = some item → model.items.find? name = some item) ∧
    (modelSettings.synthesize →
      model.items.contains modelSettings.rootName ∧ model.items.contains modelSettings.linkName) := by
  intro registry declared model
  have kept : registry.WellKept := (Registry.reachable_run settings operations).wellKept
  have counted : ∀ kind, registry.count kind = (acceptedNames kind declared).card := by
    intro kind
    rw [← Registry.count_ofDeclarations settings, ← Registry.run_eq_ofDeclarations]
  have known : ∀ name, registry.items.contains name = false ↔ name ∉ acceptedNames .item declared := by
    intro name
    rw [← Registry.contains_items_ofDeclarations settings, ← Registry.run_eq_ofDeclarations,
      Bool.not_eq_true]
  refine ⟨kept, wellKept_build modelSettings generation kept, counted, ?_, ?_, ?_, ?_, ?_, ?_⟩
  · rw [← counted, ← counted, ← counted, ← counted, ← counted, ← counted]
    rfl
  · intro kind
    rw [← counted kind]
    exact count_build modelSettings generation kept kind
  · intro name
    rw [← known name]
    exact mem_names_synthesized_build modelSettings generation kept name
  · intro declaration error failed
    have rejected := Registry.rejected_of_register_eq_error failed
    refine ⟨?_, Registry.registerAll_of_rejected rejected registry⟩
    rw [Registry.perform, failed]
  · intro name item found
    exact find?_items_build_of_registered modelSettings generation kept found
  · intro synthesized
    have present := contains_items_build modelSettings registry generation
    exact ⟨(present _).mpr (.inr ⟨synthesized, .inl rfl⟩), (present _).mpr (.inr ⟨synthesized, .inr rfl⟩)⟩

/-- An item is declared before and after a clearing, in two parts, a blank name is rejected, and the
root and the link item have the same name. -/
theorem tables_wellKept_after_operations_with_one_builtin :
    let operations : List Registry.Operation :=
      [.registerAll [.item { name := "Order" }, .item { name := "Draft" }], .clear,
        .register (.item { name := "Order", parent := some " ", attributes := [{ name := " code " }] }),
        .registerAll [.enumeration { name := "" }, .item { name := "Order", indexes := [{ name := "key " }] }]]
    let order : Item :=
      { name := "Order"
        attributes := ⟨[("code", ⟨"code", "Order", none, {}, false, .empty, none⟩)]⟩
        indexes := ⟨[("key", { name := "key" })]⟩ }
    let registry := Registry.run {} operations
    let model := build { rootName := "Link" } registry 1
    registry.WellKept ∧ model.WellKept ∧
      registry.count .item = 1 ∧ registry.size = 1 ∧
      model.count .item = 1 + 1 ∧ "Link" ∈ model.synthesized.map (·.name) ∧
      registry.register (.map { name := "\t" }) = .error ⟨.map, none⟩ ∧
      registry.perform (.register (.map { name := "\t" })) = registry ∧
      registry.items.find? "Order" = some order ∧ model.items.find? "Order" = some order ∧
      model.items.contains "Link" := by
  intro operations order registry model
  obtain ⟨kept, modelKept, counted, total, modelCounted, synthesizes, unchanged, stays, present⟩ :=
    tables_wellKept_after_operations {} operations { rootName := "Link" } 1
  have failed : registry.register (.map { name := "\t" }) = .error ⟨.map, none⟩ := by decide
  have found : registry.items.find? "Order" = some order := by decide
  exact ⟨kept, modelKept, (counted .item).trans (by decide), total.trans (by decide),
    (modelCounted .item).trans (by decide), (synthesizes "Link").mpr (by decide), failed,
    (unchanged _ _ failed).1, found, stays _ _ found, (present rfl).2⟩

end Model

end ItemSchema
