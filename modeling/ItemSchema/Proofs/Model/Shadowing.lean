import ItemSchema.Model.Features
import ItemSchema.Proofs.Model.WellKept

/-! What is visible of the features along a chain.

An overlay of tables keeps the first entry of every key, so that the nearest level
decides what a name stands for. Attributes and indexes are held under their own
names, and so they can be looked for in the visible ones as well as level by level.
An index that is marked for removal is left out after the nearest one of its name
was chosen, and not before: it hides the indexes of its name that are farther away.
-/

set_option autoImplicit false

namespace ItemSchema

/-- Every attribute is held under its own name. -/
def Item.KeepsAttributeNames (item : Item) : Prop :=
  ∀ entry ∈ item.attributes.entries, entry.2.name = entry.1

/-- Every index is held under its own name, and no two under the same. -/
structure Item.KeepsIndexNames (item : Item) : Prop where
  keyed : ∀ entry ∈ item.indexes.entries, entry.2.name = entry.1
  distinct : item.indexes.keys.Nodup

theorem Item.KeepsIndexNames.nodup_names {item : Item} (keeps : item.KeepsIndexNames) :
    (item.indexes.values.map (·.name)).Nodup := by
  have names : item.indexes.values.map (·.name) = item.indexes.keys := by
    rw [Table.values, Table.keys, List.map_map]
    exact List.map_congr_left keeps.keyed
  rw [names]
  exact keeps.distinct

namespace Model

theorem Reachable.keepsAttributeNames {model : Model} (reachable : model.Reachable) {name : String}
    {item : Item} (found : model.items.find? name = some item) : item.KeepsAttributeNames := by
  intro entry member
  exact ((reachable.wellKept.attributes found).allowed entry member).named

theorem Reachable.keepsIndexNames {model : Model} (reachable : model.Reachable) {name : String}
    {item : Item} (found : model.items.find? name = some item) : item.KeepsIndexNames where
  keyed entry member := ((reachable.wellKept.indexes found).allowed entry member).named
  distinct := (reachable.wellKept.indexes found).distinct

theorem Reachable.find?_of_mem_levels {model : Model} (reachable : model.Reachable) {name : String}
    {item level : Item} {inherited : Bool} (found : model.items.find? name = some item)
    (member : level ∈ model.levels item inherited) : model.items.find? level.name = some level := by
  have inChain : level ∈ model.ancestryOf name := by
    rw [ancestryOf, found]
    exact mem_ancestry_of_mem_levels member
  exact find?_of_mem_ancestryOf reachable.keyedByName inChain

theorem Reachable.keepsAttributeNames_levels {model : Model} (reachable : model.Reachable)
    {name : String} {item level : Item} {inherited : Bool}
    (found : model.items.find? name = some item) (member : level ∈ model.levels item inherited) :
    level.KeepsAttributeNames :=
  reachable.keepsAttributeNames (reachable.find?_of_mem_levels found member)

/-- The first entry of every key stands, in the order in which the keys first occur. -/
theorem entries_overlay {α : Type} (tables : List (Table String α)) :
    (overlay tables).entries = firstOfEach Prod.fst (tables.flatMap Table.entries) := by
  have offered : overlay tables = Table.empty.insertAllIfNew (tables.flatMap Table.entries) := by
    rw [Table.insertAllIfNew, List.foldl_flatMap]
    rfl
  rw [offered, Table.entries_insertAllIfNew]
  simp [Table.empty, Table.contains, Table.find?, Table.lookup]

/-- Where values are held under their own names, the first value of every name stands. -/
theorem values_overlay {α : Type} {nameOf : α → String} {tables : List (Table String α)}
    (keyed : ∀ table ∈ tables, ∀ entry ∈ table.entries, nameOf entry.2 = entry.1) :
    (overlay tables).values = firstOfEach nameOf (tables.flatMap Table.values) := by
  have values : tables.flatMap Table.values = (tables.flatMap Table.entries).map Prod.snd := by
    rw [List.map_flatMap]
    rfl
  have named : ∀ entry ∈ tables.flatMap Table.entries, entry.1 = (nameOf ∘ Prod.snd) entry := by
    intro entry member
    obtain ⟨table, isTable, held⟩ := List.mem_flatMap.mp member
    exact (keyed table isTable entry held).symm
  rw [Table.values, entries_overlay, firstOfEach_congr named, values, firstOfEach_map]

theorem head?_filter_flatMap_entries {α : Type} (tables : List (Table String α)) (name : String) :
    (((tables.flatMap Table.entries).filter (·.1 = name)).map Prod.snd).head? =
      tables.findSome? (·.find? name) := by
  rw [List.filter_flatMap, List.map_flatMap, List.head?_flatMap]
  congr 1
  funext table
  rw [List.head?_map]
  exact (Table.lookup_eq_head?_filter name table.entries).symm

/-- Where values are held under their own names, the one of a name in the overlay is what the first
table that has the name holds under it. -/
theorem filter_values_overlay {α : Type} {nameOf : α → String} {tables : List (Table String α)}
    (keyed : ∀ table ∈ tables, ∀ entry ∈ table.entries, nameOf entry.2 = entry.1) (name : String) :
    (overlay tables).values.filter (nameOf · = name) = (tables.findSome? (·.find? name)).toList := by
  have byKey : (overlay tables).values.filter (nameOf · = name) =
      ((overlay tables).entries.filter (·.1 = name)).map Prod.snd := by
    rw [Table.values, List.filter_map]
    congr 1
    apply List.filter_congr
    intro entry member
    rw [entries_overlay] at member
    obtain ⟨table, isTable, held⟩ := List.mem_flatMap.mp ((firstOfEach_sublist _ _).subset member)
    simp [keyed table isTable entry held]
  rw [byKey, entries_overlay, filter_firstOfEach, ← Option.toList_map, ← List.head?_map,
    head?_filter_flatMap_entries]

/-- What is visible along some levels of parts that have names: the nearest part of every name, in the
order in which the names are met. -/
structure IsNearest {β : Type} (nameOf : β → String) (own : Item → List β) (levels : List Item)
    (visible : List β) : Prop where
  eq_firstOfEach : visible = firstOfEach nameOf (levels.flatMap own)
  distinct : (visible.map nameOf).Nodup
  find?_eq : ∀ name, visible.find? (nameOf · = name) =
    levels.findSome? fun level => (own level).find? (nameOf · = name)

section Nearest

variable {β : Type} {nameOf : β → String} {own : Item → List β}

theorem isNearest_firstOfEach (levels : List Item) :
    IsNearest nameOf own levels (firstOfEach nameOf (levels.flatMap own)) where
  eq_firstOfEach := rfl
  distinct := nodup_map_firstOfEach nameOf _
  find?_eq name := by rw [find?_firstOfEach, List.find?_flatMap]

/-- What the item alone shows comes first along the whole chain. -/
theorem IsNearest.own_first {model : Model} {item : Item} {alone visible : List β}
    (nearest : IsNearest nameOf own (model.levels item false) alone)
    (inherited : IsNearest nameOf own (model.levels item true) visible) : alone <+: visible := by
  obtain ⟨rest, chain⟩ := model.climb_eq_cons model.items.size [item.name] item
  have levels : model.levels item true = model.levels item false ++ rest := by
    simp [Model.levels, ancestry, chain]
  rw [nearest.eq_firstOfEach, inherited.eq_firstOfEach, levels, List.flatMap_append,
    firstOfEach_append]
  exact List.prefix_append _ _

/-- A part covers all parts of its name on farther levels: what is visible of the name is the part
itself or nearer. -/
theorem IsNearest.eq_or_mem_nearer {near far : List Item} {level : Item} {visible : List β}
    (nearest : IsNearest nameOf own (near ++ level :: far) visible)
    (distinct : ((own level).map nameOf).Nodup) {part cover : β} (declared : cover ∈ own level)
    (member : part ∈ visible) (same : nameOf part = nameOf cover) :
    part = cover ∨ ∃ nearer ∈ near, part ∈ own nearer := by
  have found := nearest.find?_eq (nameOf part)
  rw [find?_of_nodup_map nearest.distinct member, List.findSome?_append, List.findSome?_cons, same,
    find?_of_nodup_map distinct declared] at found
  cases nearer : near.findSome? fun level => (own level).find? (nameOf · = nameOf cover) with
  | none =>
    rw [nearer] at found
    exact .inl (Option.some.inj found)
  | some other =>
    rw [nearer] at found
    cases found
    obtain ⟨level, isNear, held⟩ := List.exists_of_findSome?_eq_some nearer
    exact .inr ⟨level, isNear, List.mem_of_find?_eq_some held⟩

end Nearest

section Queries

variable {model : Model} {item : Item} {inherited : Bool}

theorem keyed_levels_attributes
    (keeps : ∀ level ∈ model.levels item inherited, level.KeepsAttributeNames) :
    ∀ table ∈ (model.levels item inherited).map (·.attributes),
      ∀ entry ∈ table.entries, entry.2.name = entry.1 := by
  intro table isLevel
  obtain ⟨level, inChain, rfl⟩ := List.mem_map.mp isLevel
  exact keeps level inChain

theorem isNearest_visibleAttributes
    (keeps : ∀ level ∈ model.levels item inherited, level.KeepsAttributeNames) :
    IsNearest Attribute.name (·.attributes.values) (model.levels item inherited)
      (model.visibleAttributes item inherited) := by
  rw [visibleAttributes, values_overlay (keyed_levels_attributes keeps), List.flatMap_map]
  exact isNearest_firstOfEach _

/-- Of the visible attributes the one of a name is the nearest one along the chain. -/
theorem filter_visibleAttributes
    (keeps : ∀ level ∈ model.levels item inherited, level.KeepsAttributeNames) (name : String) :
    (model.visibleAttributes item inherited).filter (·.name = name) =
      (model.attributesNamed item name inherited).head?.toList := by
  rw [visibleAttributes, filter_values_overlay (keyed_levels_attributes keeps), List.findSome?_map,
    attributesNamed, List.head?_filterMap]
  rfl

theorem isNearest_visibleProperties :
    IsNearest Prod.fst (·.customProperties.entries) (model.levels item inherited)
      (model.visibleProperties item inherited).entries := by
  rw [visibleProperties, entries_overlay, List.flatMap_map]
  exact isNearest_firstOfEach _

theorem exists_isNearest_visibleIndexes
    (keeps : ∀ level ∈ model.levels item inherited, level.KeepsIndexNames) :
    ∃ standing, IsNearest Index.name (·.indexes.values) (model.levels item inherited) standing ∧
      model.visibleIndexes item inherited = standing.filter (!·.remove) := by
  have keyed : ∀ table ∈ (model.levels item inherited).map (·.indexes),
      ∀ entry ∈ table.entries, entry.2.name = entry.1 := by
    intro table isLevel
    obtain ⟨level, inChain, rfl⟩ := List.mem_map.mp isLevel
    exact (keeps level inChain).keyed
  refine ⟨_, isNearest_firstOfEach _, ?_⟩
  rw [visibleIndexes, values_overlay keyed, List.flatMap_map]

end Queries

/-- Each of the three queries keeps of every name what the nearest level has, and of the indexes leaves
out afterwards those marked for removal. What the item shows without its ancestors comes first. An
index that is marked for removal hides the indexes of its name on all farther levels. -/
theorem visible_features_are_nearest {model : Model} (reachable : model.Reachable) {name : String}
    {item : Item} (found : model.items.find? name = some item) :
    (∀ inherited,
      let levels := model.levels item inherited
      IsNearest Attribute.name (·.attributes.values) levels (model.visibleAttributes item inherited) ∧
      IsNearest Prod.fst (·.customProperties.entries) levels
        (model.visibleProperties item inherited).entries ∧
      (∃ standing, IsNearest Index.name (·.indexes.values) levels standing ∧
        model.visibleIndexes item inherited = standing.filter (!·.remove)) ∧
      ((model.visibleIndexes item inherited).map (·.name)).Nodup) ∧
    model.visibleAttributes item false <+: model.visibleAttributes item true ∧
    (model.visibleProperties item false).entries <+: (model.visibleProperties item true).entries ∧
    model.visibleIndexes item false <+: model.visibleIndexes item true ∧
    ∀ near level far removed, model.ancestry item = near ++ level :: far →
      removed ∈ level.indexes.values → removed.remove →
      ∀ visible ∈ model.visibleIndexes item true, visible.name = removed.name →
        ∃ nearer ∈ near, visible ∈ nearer.indexes.values := by
  have keepsAttributes : ∀ inherited, ∀ level ∈ model.levels item inherited,
      level.KeepsAttributeNames :=
    fun inherited level member => reachable.keepsAttributeNames_levels found member
  have keepsIndexes : ∀ inherited, ∀ level ∈ model.levels item inherited, level.KeepsIndexNames :=
    fun inherited level member => reachable.keepsIndexNames (reachable.find?_of_mem_levels found member)
  obtain ⟨alone, nearestAlone, shownAlone⟩ := exists_isNearest_visibleIndexes (keepsIndexes false)
  obtain ⟨standing, nearest, shown⟩ := exists_isNearest_visibleIndexes (keepsIndexes true)
  refine ⟨fun inherited => ⟨isNearest_visibleAttributes (keepsAttributes inherited),
    isNearest_visibleProperties, exists_isNearest_visibleIndexes (keepsIndexes inherited), ?_⟩,
    ?_, ?_, ?_, ?_⟩
  · obtain ⟨standing, nearest, shown⟩ := exists_isNearest_visibleIndexes (keepsIndexes inherited)
    rw [shown]
    exact (List.filter_sublist.map _).nodup nearest.distinct
  · exact (isNearest_visibleAttributes (keepsAttributes false)).own_first
      (isNearest_visibleAttributes (keepsAttributes true))
  · exact isNearest_visibleProperties.own_first isNearest_visibleProperties
  · rw [shownAlone, shown]
    exact (nearestAlone.own_first nearest).filter _
  · intro near level far removed split declared marked visible member same
    have chain : model.levels item true = near ++ level :: far := split
    rw [shown, List.mem_filter] at member
    rw [chain] at nearest
    have distinct := (keepsIndexes true level (by simp [chain])).nodup_names
    rcases nearest.eq_or_mem_nearer distinct declared member.1 same with rfl | nearer
    · simp [marked] at member
    · exact nearer

/-- Two items that extend each other. The nearer one has an index that is marked for removal, and the
farther one an index of that name that is not. -/
theorem visible_features_are_nearest_in_cycle :
    let code : Index := { name := "code" }
    let date : Index := { name := "date" }
    let removed : Index := { name := "code", remove := true }
    let model := build {} (Registry.ofDeclarations {}
      [.item { name := "Order", parent := some "Base", indexes := [removed, date] },
        .item
          { name := "Base", parent := some "Order", indexes := [code, { date with unique := true }] }]) 1
    let order : Item :=
      { name := "Order", parent := some "Base", indexes := ⟨[("code", removed), ("date", date)]⟩ }
    model.items.find? "Order" = some order ∧
      model.visibleIndexes order false <+: model.visibleIndexes order true ∧
      model.visibleIndexes order true = [date] ∧
      ∀ visible ∈ model.visibleIndexes order true, visible.name ≠ "code" := by
  intro code date removed model order
  have reachable : model.Reachable := .build {} ((Registry.Reachable.empty {}).registerAll _) 1
  have found : model.items.find? "Order" = some order := by decide
  obtain ⟨-, -, -, own, hides⟩ := visible_features_are_nearest reachable found
  refine ⟨found, own, by decide, fun visible member same => ?_⟩
  have chain : model.ancestry order = [] ++ order :: (model.ancestry order).tail := by decide
  obtain ⟨nearer, none, -⟩ := hides [] order _ removed chain (by decide) rfl visible member same
  cases none

end Model

end ItemSchema
