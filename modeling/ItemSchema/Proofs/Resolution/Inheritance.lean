import ItemSchema.Proofs.Model.Subtyping
import ItemSchema.Resolution.Candidate

/-! What an item inherits is what its parent has.

The chain of an item goes on with the chain of its parent, unless that one comes
back to the item. There the two are rotations of one cycle: they stop at
different levels, and still have the same ones.
-/

set_option autoImplicit false

namespace ItemSchema.Model

variable {model : Model}

/-- The two walks start from different names met, but the chain of the parent has neither. -/
theorem ancestry_eq_cons_of_parent (keyed : KeyedByName model.items) {item parent : Item}
    (found : model.items.find? item.name = some item) (isParent : model.IsParent item parent)
    (acyclic : item ∉ model.ancestry parent) : model.ancestry item = item :: model.ancestry parent := by
  obtain ⟨name, named, foundParent⟩ := isParent
  cases keyed name parent foundParent
  have above := walk_ancestry keyed foundParent
  have named_ne : ∀ level ∈ model.ancestry parent, level.name ≠ item.name := by
    intro level member same
    have known := find?_of_mem_climb keyed _ _ foundParent member
    rw [same, found] at known
    cases known
    exact acyclic member
  refine (walk_ancestry keyed found).unique (.up ?_ (above.of_more_visited keyed ?_ ?_))
  · apply (nextUp?_eq_some_iff keyed _ _ _).mpr
    exact ⟨named, by simpa using named_ne parent above.mem_self, foundParent⟩
  · simp
  · intro level higher met
    have other := named_ne level (List.mem_of_mem_tail higher)
    simpa [other] using met

theorem ancestry_eq_singleton (keyed : KeyedByName model.items) {item : Item}
    (found : model.items.find? item.name = some item) (top : ∀ parent, ¬ model.IsParent item parent) :
    model.ancestry item = [item] := by
  refine (walk_ancestry keyed found).unique (.stop ((nextUp?_eq_none_iff _ _ _).mpr ?_))
  intro name named
  right
  cases foundParent : model.items.find? name with
  | none => rfl
  | some parent => exact absurd ⟨name, named, foundParent⟩ (top parent)

/-- Chains without repetitions that reach each other have the same levels. -/
theorem ancestry_perm_of_reaches (keyed : KeyedByName model.items) {item other : Item}
    (found : model.items.find? item.name = some item) (up : model.Reaches item other)
    (back : model.Reaches other item) : (model.ancestry item).Perm (model.ancestry other) := by
  have maximal := isMaximalChain_ancestry keyed found
  have maximalOther := isMaximalChain_ancestry keyed (find?_of_reaches keyed found up)
  apply (List.perm_ext_iff_of_nodup maximal.distinct.of_map maximalOther.distinct.of_map).mpr
  intro level
  rw [maximal.mem_iff_reaches, maximalOther.mem_iff_reaches]
  exact ⟨back.trans, up.trans⟩

theorem candidates_eq_flatMap_levels {item : Item} (found : model.items.find? item.name = some item)
    (feature : String) (inherited : Bool) :
    model.candidates { ownerKind := .item, owner := item.name, feature, inherited } =
      (model.levels item inherited).flatMap (model.candidatesAt feature) := by
  simp only [candidates, found, candidatesOnItem]

/-- An item has its own candidates and, after them, all that its parent has, unless the chain of the
parent comes back to the item. Without a parent in the model there is nothing to inherit, and the
items of one cycle have the same candidates, in some order. -/
theorem candidates_inherited_from_parent (reachable : model.Reachable) {item : Item}
    (held : item ∈ model.items.values) :
    (∀ parent, model.IsParent item parent → item ∉ model.ancestry parent →
      model.ancestry item = item :: model.ancestry parent ∧
        ∀ feature,
          model.candidates { ownerKind := .item, owner := item.name, feature, inherited := true } =
            model.candidates { ownerKind := .item, owner := item.name, feature, inherited := false } ++
              model.candidates { ownerKind := .item, owner := parent.name, feature, inherited := true }) ∧
    ((∀ parent, ¬ model.IsParent item parent) → ∀ feature,
      model.candidates { ownerKind := .item, owner := item.name, feature, inherited := true } =
        model.candidates { ownerKind := .item, owner := item.name, feature, inherited := false }) ∧
    ∀ (cycle : Cycle Item) (other : Item), cycle.Chain model.IsParent → item ∈ cycle → other ∈ cycle →
      ∀ feature,
        (model.candidates { ownerKind := .item, owner := item.name, feature, inherited := true }).Perm
          (model.candidates { ownerKind := .item, owner := other.name, feature, inherited := true }) := by
  have keyed := reachable.keyedByName
  have found := reachable.find?_name held
  refine ⟨?_, ?_, ?_⟩
  · intro parent isParent acyclic
    have chain := ancestry_eq_cons_of_parent keyed found isParent acyclic
    refine ⟨chain, fun feature => ?_⟩
    obtain ⟨name, -, foundParent⟩ := isParent
    cases keyed name parent foundParent
    rw [candidates_eq_flatMap_levels found, candidates_eq_flatMap_levels found,
      candidates_eq_flatMap_levels foundParent]
    simp [levels, chain]
  · intro top feature
    rw [candidates_eq_flatMap_levels found, candidates_eq_flatMap_levels found]
    simp [levels, ancestry_eq_singleton keyed found top]
  · intro cycle other steps onCycle otherOnCycle feature
    have up := reaches_of_mem_cycle steps onCycle otherOnCycle
    rw [candidates_eq_flatMap_levels found,
      candidates_eq_flatMap_levels (find?_of_reaches keyed found up)]
    apply List.Perm.flatMap_right
    exact ancestry_perm_of_reaches keyed found up (reaches_of_mem_cycle steps otherOnCycle onCycle)

/-- An item leads into a cycle of two others, and all three have the feature. The chain of the root
has no other level. -/
theorem candidates_inherited_from_parent_into_cycle :
    let declared (name parent : String) : Declaration :=
      .item { name, parent := some parent, attributes := [{ name := "code" }] }
    let code (item : String) : Attribute :=
      { name := "code", declaringItem := item, typeRef := none, modifiers := {}, redeclare := false,
        customProperties := .empty, origin := none }
    let record (name parent : String) : Item :=
      { name, parent := some parent, attributes := ⟨[("code", code name)]⟩ }
    let model := build {} (Registry.ofDeclarations {}
      [declared "Order" "Base", declared "Base" "Part", declared "Part" "Base"]) 1
    let order := record "Order" "Base"
    let base := record "Base" "Part"
    let part := record "Part" "Base"
    let root : Item := { name := "GenericItem", synthetic := true }
    let ask (item : Item) (inherited : Bool) : List Candidate :=
      model.candidates { ownerKind := .item, owner := item.name, feature := "code", inherited }
    (order ∈ model.items.values ∧ model.IsParent order base ∧ order ∉ model.ancestry base) ∧
      model.ancestry order = order :: model.ancestry base ∧
      ask order true = ask order false ++ ask base true ∧
      (ask base true).Perm (ask part true) ∧ ask base true ≠ ask part true ∧
      ask root true = ask root false := by
  intro declared code record model order base part root ask
  have reachable : model.Reachable := .build {} ((Registry.Reachable.empty {}).registerAll _) 1
  have heldOrder : order ∈ model.items.values := by decide
  have heldBase : base ∈ model.items.values := by decide
  have heldRoot : root ∈ model.items.values := by decide
  have orderUp : model.IsParent order base := ⟨"Base", by decide, by decide⟩
  have baseUp : model.IsParent base part := ⟨"Part", by decide, by decide⟩
  have partUp : model.IsParent part base := ⟨"Base", by decide, by decide⟩
  have apart : order ∉ model.ancestry base := by decide
  have top : ∀ parent, ¬ model.IsParent root parent := by
    rintro parent ⟨name, named, -⟩
    have none : root.parentName? model.rootName = none := by decide
    simp [none] at named
  have steps : Cycle.Chain model.IsParent ([base, part] : List Item) := by
    simp [Cycle.chain_coe_cons, baseUp, partUp]
  obtain ⟨chain, composed⟩ :=
    (candidates_inherited_from_parent reachable heldOrder).1 base orderUp apart
  refine ⟨⟨heldOrder, orderUp, apart⟩, chain, composed "code", ?_, by decide, ?_⟩
  · exact (candidates_inherited_from_parent reachable heldBase).2.2 _ part steps (by simp) (by simp) "code"
  · exact (candidates_inherited_from_parent reachable heldRoot).2.1 top "code"

end ItemSchema.Model
