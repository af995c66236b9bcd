import ItemSchema.Proofs.Model.Walk
import ItemSchema.Proofs.Resolution.ItemOwner

/-! What the candidates for a feature of an item depend on.

These are the records in the chain of the item, the name at which the chain stops
because no item has it, and the relations with an end on one of its levels. A
declaration that keeps clear of all of them changes no candidate.
-/

set_option autoImplicit false

namespace ItemSchema

/-- Whether a declaration keeps clear of the chain of an item. A later declaration of a relation
does so anyway, since the first one stands. -/
def Declaration.keepsClear (registry : Registry) (model : Model) (name : String) : Declaration → Bool
  | .item declaration =>
      declaration.name ∉ model.chainNames name && model.missingName? name ≠ some declaration.name
  | .relation declaration =>
      registry.relations.contains declaration.name ||
        [Side.source, Side.target].all fun side =>
          (declaration.atSide side).typeName.all (· ∉ model.chainNames name)
  | .enumeration _ | .collection _ | .atomic _ | .map _ => true

theorem Declaration.itemNamed?_of_keepsClear {registry : Registry} {model : Model} {name asked : String}
    {declaration : Declaration} (clear : declaration.keepsClear registry model name)
    (relevant : asked ∈ model.chainNames name ∨ model.missingName? name = some asked) :
    declaration.itemNamed? asked = none := by
  cases declaration with
  | item declared =>
    simp only [keepsClear, Bool.and_eq_true, decide_eq_true_eq] at clear
    have other : declared.name ≠ asked := by
      rintro rfl
      rcases relevant with inChain | missing
      · exact clear.1 inChain
      · exact clear.2 missing
    simp [itemNamed?, other]
  | _ => rfl

/-- An item gains ends from a relation only by being a type that the declaration names. -/
theorem Relation.exists_typeName_of_mem_references {declaration : RelationDeclaration}
    {reference : String × RelationEnd} (member : reference ∈ (ofDeclaration declaration).references) :
    ∃ side, (declaration.atSide side).typeName = some reference.1 := by
  obtain ⟨side, _, held⟩ := List.mem_filterMap.mp member
  obtain ⟨_, _, _, typed⟩ := (referenceAt?_eq_some_iff _ _ _ _).mp held
  rw [atSide_ofDeclaration] at typed
  obtain ⟨written, named, kept⟩ := Option.bind_eq_some_iff.mp typed
  refine ⟨side.opposite, ?_⟩
  rw [named]
  unfold Text.nonBlank? at kept
  split at kept
  · cases kept
  · exact kept

namespace Model

theorem find?_items_build_congr (settings : Settings) {first second : Registry} {name : String}
    (same : first.items.find? name = second.items.find? name) (generation other : Generation) :
    (build settings first generation).items.find? name =
      (build settings second other).items.find? name := by
  simp only [build]
  split
  · simp only [synthesize, Table.find?_insertIfNew, same]
  · exact same

/-- A declaration that keeps clear of a chain gives no ends to its levels. -/
theorem referencesOf_build_merge (settings : Settings) {registry : Registry} {model : Model}
    {name : String} {declaration : Declaration}
    (clear : declaration.keepsClear registry model name) (generation other : Generation)
    {level : String} (inChain : level ∈ model.chainNames name) :
    (build settings (registry.merge declaration) other).referencesOf level =
      (build settings registry generation).referencesOf level := by
  rw [referencesOf_build, referencesOf_build, Registry.relations_merge]
  cases declaration with
  | relation declared =>
    simp only [Declaration.relation?, Table.values, Table.entries_insertIfNew]
    cases known : registry.relations.contains declared.name with
    | true => rfl
    | false =>
      simp only [Declaration.keepsClear, known, Bool.false_or, List.all_eq_true] at clear
      have ungiven : (Relation.ofDeclaration declared).references.filter (·.1 = level) = [] := by
        rw [List.filter_eq_nil_iff]
        intro reference member own
        obtain ⟨side, typed⟩ := Relation.exists_typeName_of_mem_references member
        have outside := clear side (by cases side <;> simp)
        rw [typed, decide_eq_true_eq.mp own] at outside
        simp [inChain] at outside
      simp [ungiven]
  | _ => rfl

/-- The candidates on an item are those on the levels of its chain. -/
theorem candidates_eq_flatMap_ancestryOf (model : Model) (name feature : String) (inherited : Bool) :
    model.candidates { ownerKind := .item, owner := name, feature, inherited } =
      (if inherited then model.ancestryOf name else (model.ancestryOf name).take 1).flatMap
        (model.candidatesAt feature) := by
  cases found : model.items.find? name with
  | none => simp [candidates, ancestryOf, found]
  | some item => simp only [candidates, ancestryOf, found, candidatesOnItem, levels_eq_take]

theorem candidates_eq_of_same_chain {before after : Model} {name : String}
    (chain : after.ancestryOf name = before.ancestryOf name)
    (ends : ∀ level ∈ before.chainNames name, after.referencesOf level = before.referencesOf level)
    (feature : String) (inherited : Bool) :
    after.candidates { ownerKind := .item, owner := name, feature, inherited } =
      before.candidates { ownerKind := .item, owner := name, feature, inherited } := by
  rw [candidates_eq_flatMap_ancestryOf, candidates_eq_flatMap_ancestryOf, chain]
  apply List.flatMap_congr
  intro level member
  have inChain : level ∈ before.ancestryOf name := by
    cases inherited with
    | true => exact member
    | false => exact List.mem_of_mem_take member
  unfold candidatesAt
  rw [ends level.name (List.mem_map_of_mem inChain)]

/-- A declaration that keeps clear of the chain of an item changes neither the chain nor what
resolves on the item. -/
theorem candidates_eq_of_keepsClear (settings : Settings) {registry merged : Registry}
    (reachable : registry.Reachable) {declaration : Declaration}
    (registered : registry.register declaration = .ok merged) (generation later : Generation)
    (name : String) :
    let before := build settings registry generation
    let after := build settings merged later
    before.items.contains name → declaration.keepsClear registry before name →
      after.ancestryOf name = before.ancestryOf name ∧
        ∀ feature inherited,
          after.candidates { ownerKind := .item, owner := name, feature, inherited } =
            before.candidates { ownerKind := .item, owner := name, feature, inherited } := by
  intro before after known clear
  have keyedBefore : KeyedByName before.items :=
    keyedByName_build_of_reachable settings reachable generation
  have keyedAfter : KeyedByName after.items :=
    keyedByName_build_of_reachable settings (reachable.register registered) later
  obtain ⟨_, rfl⟩ := (Registry.register_eq_ok_iff _ _ _).mp registered
  -- whatever the chain asks for is not the item declared
  have chain : after.ancestryOf name = before.ancestryOf name := by
    refine ancestryOf_eq_of_same_items keyedBefore keyedAfter rfl known fun asked relevant => ?_
    refine find?_items_build_congr settings ?_ later generation
    rw [Registry.find?_items_merge, Declaration.itemNamed?_of_keepsClear clear relevant]
  exact ⟨chain, candidates_eq_of_same_chain chain fun level inChain =>
    referencesOf_build_merge settings clear generation later inChain⟩

/-- The root item is declared, with the feature in question, while the chain of another item stops
below it at a name that no item has. -/
theorem candidates_eq_after_declaring_root :
    let registry := Registry.ofDeclarations {}
      [.item { name := "Order", parent := some "Base" },
        .item { name := "Base", parent := some "Missing", attributes := [{ name := "code" }] }]
    let root : Declaration := .item { name := "GenericItem", attributes := [{ name := "code" }] }
    let before := build {} registry 1
    let after := build {} (registry.merge root) 2
    before.items.contains "Order" ∧ root.keepsClear registry before "Order" ∧
      after.ancestryOf "Order" = before.ancestryOf "Order" ∧
        ∀ feature inherited,
          after.candidates { ownerKind := .item, owner := "Order", feature, inherited } =
            before.candidates { ownerKind := .item, owner := "Order", feature, inherited } := by
  intro registry root before after
  have known : before.items.contains "Order" := by decide
  have clear : root.keepsClear registry before "Order" := by decide
  have reachable : registry.Reachable := (Registry.Reachable.empty {}).registerAll _
  have registered : registry.register root = .ok (registry.merge root) :=
    Registry.register_of_accepted (by decide) registry
  exact ⟨known, clear, candidates_eq_of_keepsClear {} reachable registered 1 2 "Order" known clear⟩

end Model

end ItemSchema
