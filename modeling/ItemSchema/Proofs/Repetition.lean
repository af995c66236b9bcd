import ItemSchema.Proofs.Registry.Conflicts
import ItemSchema.Proofs.Registry.Reachable
import ItemSchema.Proofs.Table.Repeated
import ItemSchema.Resolution.Candidate

/-! Declarations that are registered a second time.

No rule of a record is moved by the same declarations once more: what adds up is
there already, what stands first still does, and what stands last comes last again.
Only the origins of items and enumerations are listed twice, and conflicts are
added. A resolution on an item or a relation reads neither of them.
-/

set_option autoImplicit false

namespace ItemSchema

attribute [ext] Item Enumeration MapType

/-- The item with its origins listed twice. -/
def Item.toldTwice (item : Item) : Item :=
  { item with declarations := item.declarations ++ item.declarations }

def Enumeration.toldTwice (enumeration : Enumeration) : Enumeration :=
  { enumeration with declarations := enumeration.declarations ++ enumeration.declarations }

theorem ParentPolicy.prevailing?_append_self (policy : ParentPolicy) (parents : List String) :
    policy.prevailing? (parents ++ parents) = policy.prevailing? parents := by
  cases policy with
  | firstWins => rw [prevailing?, prevailing?, List.head?_append, Option.or_self]
  | lastWins => rw [prevailing?, prevailing?, List.getLast?_append, Option.or_self]

/-- The first index may replace another one when it comes again, but not the last one to do so. -/
theorem Index.standing?_append_self (indexes : List Index) :
    standing? (indexes ++ indexes) = standing? indexes := by
  cases indexes with
  | nil => rfl
  | cons first later =>
    cases replacing : (later.filter (·.replace)).getLast? <;> cases replaces : first.replace <;>
      simp [standing?, List.getLast?_cons, replacing, replaces]

theorem Index.foldl_mergeInto_append_self (indexes : List Index) :
    (indexes ++ indexes).foldl mergeInto .empty = indexes.foldl mergeInto .empty := by
  rw [mergeInto_eq_revise]
  refine Table.foldl_revise_append_self_eq _ (fun own => ?_) indexes
  rw [revised_eq_standing?, revised_eq_standing?, standing?_append_self]

theorem Item.mergeAll_append_self (policy : ParentPolicy) (name : String)
    (declared : List ItemDeclaration) :
    mergeAll policy { name } (declared ++ declared) =
      (mergeAll policy { name } declared).toldTwice := by
  ext1
  case name => simp only [toldTwice, name_mergeAll]
  case parent =>
    simp only [toldTwice, parent_mergeAll, List.filterMap_append]
    exact policy.prevailing?_append_self _
  case attributes =>
    simp only [toldTwice, attributes_mergeAll, attributeEntries, List.flatMap_append,
      List.filterMap_append, List.map_append]
    exact Table.insertAll_append_self _
  case customProperties =>
    simp only [toldTwice, customProperties_mergeAll, List.flatMap_append, List.filterMap_append]
    exact Table.insertAll_append_self _
  case indexes =>
    simp only [toldTwice, indexes_mergeAll, List.flatMap_append, List.filterMap_append]
    exact Index.foldl_mergeInto_append_self _
  case flags => simp only [toldTwice, flags_mergeAll, List.any_append, Bool.or_self]
  case declarations => simp [toldTwice, declarations_mergeAll]
  case synthetic => simp only [toldTwice, synthetic_mergeAll]

theorem Enumeration.foldl_merge_append_self (name : String) (declared : List EnumerationDeclaration) :
    (declared ++ declared).foldl merge { name } = (declared.foldl merge { name }).toldTwice := by
  ext1
  case name => simp only [toldTwice, name_foldl_merge]
  case values =>
    simp only [toldTwice, values_foldl_merge, List.flatMap_append, List.filterMap_append]
    exact Table.insertAllIfNew_append_self _
  case dynamic => simp only [toldTwice, dynamic_foldl_merge, List.any_append, Bool.or_self]
  case declarations => simp [toldTwice, declarations_foldl_merge]

theorem MapType.foldl_fill_append_self (name : String) (declared : List MapType) :
    (declared ++ declared).foldl fill { name } = declared.foldl fill { name } := by
  have twice := isMergeOf_foldl_fill name (declared ++ declared)
  have once := isMergeOf_foldl_fill name declared
  ext1
  case name => simp only [name_foldl_fill]
  case argumentType =>
    rw [twice.argumentType, once.argumentType, List.findSome?_append, Option.or_self]
  case returnType => rw [twice.returnType, once.returnType, List.findSome?_append, Option.or_self]
  case origin => rw [twice.origin, once.origin, List.findSome?_append, Option.or_self]

namespace Registry

/-- The registry with the origins of items and enumerations listed twice. -/
def toldTwice (registry : Registry) : Registry :=
  { registry with
    items := registry.items.mapValues Item.toldTwice
    enumerations := registry.enumerations.mapValues Enumeration.toldTwice }

theorem revisedBy_append_self (settings : Settings) (declarations : List Declaration) :
    (ofSettings settings).revisedBy (declarations ++ declarations) =
      ((ofSettings settings).revisedBy declarations).toldTwice := by
  simp only [revisedBy, toldTwice, List.filterMap_append, mk.injEq, true_and, and_true]
  refine ⟨?items, ?enumerations, ?relations, ?collections, ?atomics, ?maps⟩
  case items =>
    apply Table.foldl_revise_append_self
    apply Table.revised_merge_append_self (fun declared => ({ name := declared.name } : Item))
      (fun item declared => (item.merge settings.parentPolicy declared).1)
    exact fun first own => Item.mergeAll_append_self settings.parentPolicy first.name own
  case enumerations =>
    apply Table.foldl_revise_append_self
    apply Table.revised_merge_append_self (fun declared => ({ name := declared.name } : Enumeration))
      Enumeration.merge
    exact fun first own => Enumeration.foldl_merge_append_self first.name own
  case relations =>
    exact Table.foldl_revise_append_self_eq _
      (Table.revised_keep_append_self Relation.ofDeclaration) _
  case collections =>
    exact Table.foldl_revise_append_self_eq _ (Table.revised_overwrite_append_self id) _
  case atomics =>
    exact Table.foldl_revise_append_self_eq _ (Table.revised_keep_append_self id) _
  case maps =>
    refine (Table.foldl_revise_append_self _ id ?_ _).trans (Table.mapValues_id _)
    apply Table.revised_merge_append_self (fun declared => ({ name := declared.name } : MapType))
      MapType.fill
    exact fun first own => MapType.foldl_fill_append_self first.name own

/-- Conflicts are only ever added. -/
theorem exists_conflicts_foldl_merge (declarations : List Declaration) (registry : Registry) :
    ∃ added, (declarations.foldl merge registry).conflicts = registry.conflicts ++ added := by
  induction declarations generalizing registry with
  | nil => exact ⟨[], by simp⟩
  | cons declaration rest ih =>
    obtain ⟨added, later⟩ := ih (registry.merge declaration)
    exact ⟨_, by rw [List.foldl_cons, later, conflicts_merge, List.append_assoc]⟩

theorem registerAll_ofDeclarations_self (settings : Settings) (declarations : List Declaration) :
    let once := ofDeclarations settings declarations
    ∃ added, (once.registerAll declarations).1 =
      { once.toldTwice with conflicts := once.conflicts ++ added } := by
  intro once
  obtain ⟨added, noted⟩ := exists_conflicts_foldl_merge (declarations.filter (·.isAccepted)) once
  obtain ⟨first, filled⟩ := ofDeclarations_eq_revisedBy settings declarations
  obtain ⟨all, refilled⟩ := ofDeclarations_eq_revisedBy settings (declarations ++ declarations)
  refine ⟨added, ?_⟩
  rw [← registerAll_eq_foldl] at noted
  rw [← noted, registerAll_ofDeclarations, refilled]
  simp only [once, filled, List.filter_append, revisedBy_append_self]
  rfl

end Registry

namespace Model

/-- The model of a later build, with the origins of items and enumerations listed twice. -/
def retold (model : Model) (later : Generation) : Model :=
  { model with
    generation := later
    items := model.items.mapValues Item.toldTwice
    enumerations := model.enumerations.mapValues Enumeration.toldTwice }

/-- Synthesized items have no origins to list. -/
theorem build_toldTwice (settings : Settings) (registry : Registry) (generation later : Generation) :
    build settings registry.toldTwice later = (build settings registry generation).retold later := by
  have items : (build settings registry.toldTwice later).items =
      (build settings registry generation).items.mapValues Item.toldTwice := by
    simp only [build]
    split
    · rw [synthesize, synthesize, Table.mapValues_insertIfNew, Table.mapValues_insertIfNew]
      rfl
    · rfl
  rw [retold, ← items]
  rfl

section Retold

variable (model : Model) (later : Generation)

theorem find?_items_retold (name : String) :
    (model.retold later).items.find? name = (model.items.find? name).map Item.toldTwice :=
  model.items.find?_mapValues Item.toldTwice name

theorem nextUp?_retold (visited : List String) (item : Item) :
    (model.retold later).nextUp? visited item.toldTwice =
      (model.nextUp? visited item).map Item.toldTwice := by
  have named : item.toldTwice.parentName? (model.retold later).rootName =
      item.parentName? model.rootName := rfl
  rw [nextUp?, nextUp?, named]
  cases item.parentName? model.rootName with
  | none => rfl
  | some parent =>
    simp only [Option.bind_some, find?_items_retold]
    split <;> rfl

theorem climb_retold (steps : Nat) (visited : List String) (item : Item) :
    (model.retold later).climb steps visited item.toldTwice =
      (model.climb steps visited item).map Item.toldTwice := by
  induction steps generalizing visited item with
  | zero => rfl
  | succ steps ih =>
    rw [climb, climb, nextUp?_retold]
    cases model.nextUp? visited item with
    | none => rfl
    | some parent => exact congrArg (_ :: ·) (ih (parent.name :: visited) parent)

theorem levels_retold (item : Item) (inherited : Bool) :
    (model.retold later).levels item.toldTwice inherited =
      (model.levels item inherited).map Item.toldTwice := by
  have sizes : (model.retold later).items.size = model.items.size :=
    model.items.size_mapValues Item.toldTwice
  simp only [levels, ancestry, sizes]
  split
  · exact model.climb_retold later _ _ item
  · rfl

theorem candidatesOnItem_retold (item : Item) (feature : String) (inherited : Bool) :
    (model.retold later).candidatesOnItem item.toldTwice feature inherited =
      model.candidatesOnItem item feature inherited := by
  -- on each level the candidates are the same already, since no origin is among what they read
  rw [candidatesOnItem, candidatesOnItem, levels_retold, List.flatMap_map]
  rfl

theorem candidatesOnRelation_retold (relation : Relation) (feature : String) :
    (model.retold later).candidatesOnRelation relation feature =
      model.candidatesOnRelation relation feature := by
  have linkName : (model.retold later).linkName = model.linkName := rfl
  simp only [candidatesOnRelation, linkName, find?_items_retold]
  cases model.items.find? model.linkName with
  | none => rfl
  | some link => simp only [Option.map_some, candidatesOnItem_retold]

theorem candidates_retold_item (owner feature : String) (inherited : Bool) :
    (model.retold later).candidates { ownerKind := .item, owner, feature, inherited } =
      model.candidates { ownerKind := .item, owner, feature, inherited } := by
  simp only [candidates, find?_items_retold]
  cases model.items.find? owner with
  | none => rfl
  | some item => exact model.candidatesOnItem_retold later item feature inherited

theorem candidates_retold_relation (owner feature : String) (inherited : Bool) :
    (model.retold later).candidates { ownerKind := .relation, owner, feature, inherited } =
      model.candidates { ownerKind := .relation, owner, feature, inherited } := by
  simp only [candidates, candidatesOnRelation_retold]
  rfl

end Retold

end Model

/-- Declarations that are registered again change the registry only in that the origins of items and
enumerations are listed twice and that conflicts may be added after the known ones. What the features
of items and relations resolve to stays the same. -/
theorem Registry.registerAll_again (settings : Settings) (declarations : List Declaration) :
    let once := ofDeclarations settings declarations
    let twice := (once.registerAll declarations).1
    (∃ added, twice = { once.toldTwice with conflicts := once.conflicts ++ added }) ∧
    ∀ (naming : Settings) (generation later : Generation) (owner feature : String) (inherited : Bool),
      let model := Model.build naming once generation
      let rebuilt := Model.build naming twice later
      rebuilt.candidates { ownerKind := .item, owner, feature, inherited } =
          model.candidates { ownerKind := .item, owner, feature, inherited } ∧
        rebuilt.candidates { ownerKind := .relation, owner, feature, inherited } =
          model.candidates { ownerKind := .relation, owner, feature, inherited } := by
  intro once twice
  obtain ⟨added, told⟩ := registerAll_ofDeclarations_self settings declarations
  refine ⟨⟨added, told⟩, fun naming generation later owner feature inherited => ?_⟩
  intro model rebuilt
  have retold : rebuilt = model.retold later :=
    calc Model.build naming twice later
        = Model.build naming { once.toldTwice with conflicts := once.conflicts ++ added } later :=
          congrArg (Model.build naming · later) told
      _ = Model.build naming once.toldTwice later := rfl
      _ = model.retold later := Model.build_toldTwice naming once generation later
  rw [retold]
  exact ⟨model.candidates_retold_item later owner feature inherited,
    model.candidates_retold_relation later owner feature inherited⟩

-- Where the last parent stands, the second time takes the item back to its first parent and then
-- away from it again, and both moves are conflicts.
example :
    let declarations : List Declaration :=
      [.item { name := "Order", parent := some "Base" },
        .item { name := "Order", parent := some "Cart" }]
    let once := Registry.ofDeclarations { parentPolicy := .lastWins } declarations
    let twice := (once.registerAll declarations).1
    twice.items = once.items ∧ once.conflicts.length = 1 ∧ twice.conflicts.length = 3 := by
  decide

end ItemSchema
