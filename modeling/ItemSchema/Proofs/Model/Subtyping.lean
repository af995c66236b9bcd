import ItemSchema.Proofs.Model.MaximalChain
import Mathlib.Data.List.Cycle

/-! Subtypes are the items that steps up lead to.

The chain of an item stops at the first name it would repeat. By then it is
closed: the parent of every level, if it is an item, is a level too. So nothing
that can be reached is left out, and being a subtype is a preorder although every
item has a chain of its own. Items that are subtypes of each other lie on a
cycle, which is then the chain of each of them.
-/

set_option autoImplicit false

namespace ItemSchema.Model

/-- The second item is reached from the first by any number of steps up. -/
def Reaches (model : Model) : Item → Item → Prop := Relation.ReflTransGen model.IsParent

namespace IsMaximalChain

variable {model : Model} {item : Item} {chain : List Item}

theorem mem_self (maximal : model.IsMaximalChain item chain) : item ∈ chain :=
  List.mem_of_head? maximal.head

theorem reaches_of_mem (maximal : model.IsMaximalChain item chain) {level : Item}
    (member : level ∈ chain) : model.Reaches item level := by
  refine maximal.climbs.induction (model.Reaches item) chain ?_ ?_ level member
  · intro lower upper step reached
    exact reached.tail step
  · intro nonempty
    have first : chain.head nonempty = item := by
      rw [← Option.some_inj, ← List.head?_eq_some_head nonempty, maximal.head]
    rw [first]
    exact .refl

/-- The level after a level is its parent. -/
theorem next_eq_parent (maximal : model.IsMaximalChain item chain) {below above : List Item}
    {level next parent : Item} (split : chain = below ++ level :: next :: above)
    (isParent : model.IsParent level parent) : next = parent := by
  have climbs := maximal.climbs
  rw [split, List.isChain_append_cons_cons] at climbs
  exact climbs.2.1.unique isParent

/-- The parent of a level, if it is an item, is a level too. -/
theorem parent_mem (maximal : model.IsMaximalChain item chain) {level parent : Item}
    (member : level ∈ chain) (isParent : model.IsParent level parent) : parent ∈ chain := by
  obtain ⟨below, above, split⟩ := List.append_of_mem member
  cases above with
  | cons next above =>
    rw [← maximal.next_eq_parent split isParent, split]
    simp
  | nil =>
    obtain ⟨name, named, found⟩ := isParent
    have ends := (maximal.ends_iff below level [] split).mp rfl
    rw [← split] at ends
    rcases ends name named with missing | repeated
    · simp [found] at missing
    · obtain ⟨earlier, inChain, rfl⟩ := List.mem_map.mp repeated
      cases found.symm.trans (maximal.known earlier inChain)
      exact inChain

theorem mem_iff_reaches (maximal : model.IsMaximalChain item chain) (other : Item) :
    other ∈ chain ↔ model.Reaches item other := by
  refine ⟨maximal.reaches_of_mem, fun reached => ?_⟩
  induction reached with
  | refl => exact maximal.mem_self
  | tail _ step ih => exact maximal.parent_mem ih step

/-- A chain with a step back to its item is a cycle. -/
theorem chain_cycle_of_return (maximal : model.IsMaximalChain item chain) {level : Item}
    (member : level ∈ chain) (back : model.IsParent level item) :
    (chain : Cycle Item).Chain model.IsParent := by
  obtain ⟨below, above, split⟩ := List.append_of_mem member
  cases above with
  | cons next above =>
    -- the item would be above a level, and so twice in the chain
    cases maximal.next_eq_parent split back
    have lowest : item ∈ below ++ [level] := mem_of_head?_split (split ▸ maximal.head)
    have distinct : chain.Nodup := maximal.distinct.of_map
    rw [split, List.append_cons] at distinct
    exact absurd rfl ((List.nodup_append.mp distinct).2.2 item lowest item List.mem_cons_self)
  | nil =>
    subst split
    rw [Cycle.chain_ne_nil _ (List.concat_ne_nil level below), List.getLast_concat]
    refine List.isChain_cons.mpr ⟨?_, maximal.climbs⟩
    intro first isFirst
    rw [maximal.head] at isFirst
    cases isFirst
    exact back

end IsMaximalChain

variable {model : Model}

theorem isSubtypeOf_iff_reaches (reachable : model.Reachable) {item other : Item}
    (held : item ∈ model.items.values) (otherHeld : other ∈ model.items.values) :
    model.isSubtypeOf item other.name ↔ model.Reaches item other := by
  have maximal := reachable.isMaximalChain held
  rw [← maximal.mem_iff_reaches]
  simp only [isSubtypeOf, List.any_eq_true, beq_iff_eq]
  constructor
  · rintro ⟨level, member, same⟩
    have found := maximal.known level member
    rw [same, reachable.find?_name otherHeld] at found
    cases found
    exact member
  · intro member
    exact ⟨other, member, rfl⟩

/-- Steps up lead from items to items. -/
theorem find?_of_reaches (keyed : KeyedByName model.items) {item other : Item}
    (found : model.items.find? item.name = some item) (up : model.Reaches item other) :
    model.items.find? other.name = some other := by
  induction up with
  | refl => exact found
  | @tail _ parent _ step _ =>
    obtain ⟨name, -, foundParent⟩ := step
    cases keyed name parent foundParent
    exact foundParent

theorem reaches_of_mem_cycle {cycle : Cycle Item} (steps : cycle.Chain model.IsParent) {item other : Item}
    (onCycle : item ∈ cycle) (otherOnCycle : other ∈ cycle) : model.Reaches item other := by
  have transitive : IsTrans Item model.Reaches := ⟨fun _ _ _ => Relation.ReflTransGen.trans⟩
  have reached : cycle.Chain model.Reaches := steps.imp fun _ _ step => .single step
  exact Cycle.chain_iff_pairwise.mp reached item onCycle other otherOnCycle

/-- Two items that reach each other are on a cycle, which is the chain of either. -/
theorem exists_cycle_iff_reaches (reachable : model.Reachable) {item other : Item}
    (held : item ∈ model.items.values) (distinct : item ≠ other) :
    (∃ cycle : Cycle Item, cycle.Nodup ∧ cycle.Chain model.IsParent ∧ item ∈ cycle ∧ other ∈ cycle) ↔
      model.Reaches item other ∧ model.Reaches other item := by
  constructor
  · rintro ⟨cycle, -, steps, onCycle, otherOnCycle⟩
    exact ⟨reaches_of_mem_cycle steps onCycle otherOnCycle,
      reaches_of_mem_cycle steps otherOnCycle onCycle⟩
  · rintro ⟨up, back⟩
    have maximal := reachable.isMaximalChain held
    obtain same | ⟨level, reached, step⟩ := Relation.ReflTransGen.cases_tail back
    · exact absurd same distinct
    · refine ⟨model.ancestry item, maximal.distinct.of_map, ?_, maximal.mem_self,
        (maximal.mem_iff_reaches other).mpr up⟩
      exact maximal.chain_cycle_of_return ((maximal.mem_iff_reaches level).mpr (up.trans reached)) step

/-- An item is a subtype of exactly the items that steps up lead to. So being a subtype is reflexive
and transitive, and two items are subtypes of each other exactly when they are on one cycle. -/
theorem subtypes_are_reached_items (reachable : model.Reachable) :
    (∀ item ∈ model.items.values, ∀ other ∈ model.items.values,
      (model.isSubtypeOf item other.name ↔ model.Reaches item other)) ∧
    (∀ item ∈ model.items.values, model.isSubtypeOf item item.name) ∧
    (∀ lower ∈ model.items.values, ∀ middle ∈ model.items.values, ∀ upper ∈ model.items.values,
      model.isSubtypeOf lower middle.name → model.isSubtypeOf middle upper.name →
        model.isSubtypeOf lower upper.name) ∧
    ∀ item ∈ model.items.values, ∀ other ∈ model.items.values, item ≠ other →
      ((model.isSubtypeOf item other.name ∧ model.isSubtypeOf other item.name) ↔
        ∃ cycle : Cycle Item,
          cycle.Nodup ∧ cycle.Chain model.IsParent ∧ item ∈ cycle ∧ other ∈ cycle) := by
  refine ⟨fun item held other otherHeld => isSubtypeOf_iff_reaches reachable held otherHeld, ?_, ?_, ?_⟩
  · intro item held
    rw [isSubtypeOf_iff_reaches reachable held held]
    exact .refl
  · intro lower lowerHeld middle middleHeld upper upperHeld
    rw [isSubtypeOf_iff_reaches reachable lowerHeld middleHeld,
      isSubtypeOf_iff_reaches reachable middleHeld upperHeld,
      isSubtypeOf_iff_reaches reachable lowerHeld upperHeld]
    exact Relation.ReflTransGen.trans
  · intro item held other otherHeld distinct
    rw [exists_cycle_iff_reaches reachable held distinct,
      isSubtypeOf_iff_reaches reachable held otherHeld,
      isSubtypeOf_iff_reaches reachable otherHeld held]

/-- An item leads into a cycle of two others. -/
theorem subtypes_are_reached_items_into_cycle :
    let registry := Registry.ofDeclarations {}
      [.item { name := "Order", parent := some "Base" }, .item { name := "Base", parent := some "Part" },
        .item { name := "Part", parent := some "Base" }]
    let order : Item := { name := "Order", parent := some "Base" }
    let base : Item := { name := "Base", parent := some "Part" }
    let part : Item := { name := "Part", parent := some "Base" }
    let model := build {} registry 1
    (order ∈ model.items.values ∧ base ∈ model.items.values ∧ part ∈ model.items.values) ∧
      model.Reaches order part ∧
      ∃ cycle : Cycle Item,
        cycle.Nodup ∧ cycle.Chain model.IsParent ∧ base ∈ cycle ∧ part ∈ cycle := by
  intro registry order base part model
  have reachable : model.Reachable := .build {} ((Registry.Reachable.empty {}).registerAll _) 1
  have heldOrder : order ∈ model.items.values := by decide
  have heldBase : base ∈ model.items.values := by decide
  have heldPart : part ∈ model.items.values := by decide
  obtain ⟨reached, -, -, onCycle⟩ := subtypes_are_reached_items reachable
  refine ⟨⟨heldOrder, heldBase, heldPart⟩, ?_, ?_⟩
  · exact (reached order heldOrder part heldPart).mp (by decide)
  · exact (onCycle base heldBase part heldPart (by decide)).mp ⟨by decide, by decide⟩

end ItemSchema.Model
