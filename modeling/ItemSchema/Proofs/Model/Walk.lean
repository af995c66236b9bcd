import ItemSchema.Proofs.Model.Ancestry

/-! The walk up a chain, without a bound on its steps.

The names met on the way are distinct names of items, so there are always fewer
steps to come than items, and the bound on a climb never cuts it short. A walk
depends on the model only through the items under the names it asks for. These
are the names in the chain, and at most one more, at which it stops because no
item has it.
-/

set_option autoImplicit false

namespace ItemSchema.Model

theorem nextUp?_eq_none_iff (model : Model) (visited : List String) (item : Item) :
    model.nextUp? visited item = none ↔
      ∀ parent, item.parentName? model.rootName = some parent →
        parent ∈ visited ∨ model.items.find? parent = none := by
  simp only [nextUp?, Option.bind_eq_none_iff, ite_eq_left_iff]
  grind

/-- An item and its ancestors, past the names that were met before. -/
inductive Walk (model : Model) : List String → Item → List Item → Prop where
  | stop {visited : List String} {item : Item} (top : model.nextUp? visited item = none) :
      Walk model visited item [item]
  | up {visited : List String} {item parent : Item} {above : List Item}
      (next : model.nextUp? visited item = some parent)
      (rest : Walk model (parent.name :: visited) parent above) : Walk model visited item (item :: above)

namespace Walk

theorem unique {model : Model} {visited : List String} {item : Item} {first second : List Item}
    (left : Walk model visited item first) (right : Walk model visited item second) :
    first = second := by
  induction left generalizing second with
  | stop top =>
    cases right with
    | stop => rfl
    | up next _ => simp [top] at next
  | up next _ ih =>
    cases right with
    | stop top => simp [top] at next
    | up other rest =>
      cases next.symm.trans other
      rw [ih rest]

theorem mem_self {model : Model} {visited : List String} {item : Item} {chain : List Item}
    (walk : Walk model visited item chain) : item ∈ chain := by
  cases walk <;> simp

/-- A model with the same items under the parents of a chain has the same chain. -/
theorem of_same_parents {before after : Model} (root : after.rootName = before.rootName)
    {visited : List String} {item : Item} {chain : List Item} (walk : Walk before visited item chain)
    (same : ∀ level ∈ chain, ∀ parent, level.parentName? before.rootName = some parent →
      after.items.find? parent = before.items.find? parent) : Walk after visited item chain := by
  have step : ∀ met, ∀ level ∈ chain, after.nextUp? met level = before.nextUp? met level := by
    intro met level member
    unfold nextUp?
    rw [root]
    apply Option.bind_congr
    intro parent above
    rw [same level member parent above]
  clear same
  induction walk with
  | stop top =>
    apply stop
    rw [step _ _ (by simp), top]
  | up next _ ih =>
    refine up ?_ (ih fun met level member => step met level (List.mem_cons_of_mem _ member))
    rw [step _ _ (by simp), next]

/-- A walk goes the same way when more names were met before it, as long as its chain has none of
them. -/
theorem of_more_visited {model : Model} (keyed : KeyedByName model.items) {visited : List String}
    {item : Item} {chain : List Item} (walk : Walk model visited item chain) {wider : List String}
    (more : visited ⊆ wider) (clear : ∀ level ∈ chain.tail, level.name ∈ wider → level.name ∈ visited) :
    Walk model wider item chain := by
  induction walk generalizing wider with
  | @stop visited item top =>
    apply stop
    rw [nextUp?_eq_none_iff] at top ⊢
    exact fun parent named => (top parent named).imp_left (@more parent)
  | @up visited item parent above next rest ih =>
    obtain ⟨named, unmet, found⟩ := (nextUp?_eq_some_iff keyed _ _ _).mp next
    have unmetStill : parent.name ∉ wider := mt (clear parent rest.mem_self) unmet
    refine up ((nextUp?_eq_some_iff keyed _ _ _).mpr ⟨named, unmetStill, found⟩) (ih ?_ ?_)
    · exact List.cons_subset_cons parent.name more
    · intro level higher met
      rcases List.mem_cons.mp met with own | earlier
      · exact own ▸ List.mem_cons_self
      · exact List.mem_cons_of_mem _ (clear level (List.mem_of_mem_tail higher) earlier)

end Walk

/-- The parent of an item, if no item has that name. -/
def missingParent? (model : Model) (item : Item) : Option String :=
  (item.parentName? model.rootName).filter (!model.items.contains ·)

/-- A walk asks for no names but those in the chain and the one at which it stops because no item
has it. -/
theorem Walk.parent_mem_or_missing {model : Model} (keyed : KeyedByName model.items)
    {visited : List String} {item : Item} {chain : List Item} (walk : Walk model visited item chain)
    {level : Item} (member : level ∈ chain) {parent : String}
    (above : level.parentName? model.rootName = some parent) :
    parent ∈ visited ∨ parent ∈ chain.map (·.name) ∨
      chain.getLast?.bind model.missingParent? = some parent := by
  induction walk with
  | @stop visited item top =>
    rw [List.mem_singleton.mp member] at above
    rcases (nextUp?_eq_none_iff model visited item).mp top parent above with met | missing
    · exact .inl met
    · right; right
      simp [missingParent?, above, Table.contains, missing]
  | @up visited item next chain found rest ih =>
    have own : next.name ∈ chain.map (·.name) := List.mem_map_of_mem rest.mem_self
    rcases List.mem_cons.mp member with rfl | higher
    · obtain ⟨named, _, _⟩ := (nextUp?_eq_some_iff keyed _ _ _).mp found
      cases named.symm.trans above
      exact .inr (.inl (by simp [own]))
    · rcases ih higher with met | listed | missing
      · rcases List.mem_cons.mp met with rfl | earlier
        · exact .inr (.inl (by simp [own]))
        · exact .inl earlier
      · exact .inr (.inl (List.mem_cons_of_mem _ listed))
      · right; right
        rw [List.getLast?_cons, ← missing]
        cases last : chain.getLast? with
        | none => simp [last] at missing
        | some top => rfl

/-- A climb with a step to spare for every item that was not met yet is a whole walk. -/
theorem walk_climb {model : Model} (keyed : KeyedByName model.items) (steps : Nat)
    {visited : List String} (distinct : visited.Nodup) (known : visited ⊆ model.items.keys)
    (enough : model.items.size < steps + visited.length) (item : Item) :
    Walk model visited item (model.climb steps visited item) := by
  induction steps generalizing visited item with
  | zero =>
    -- more distinct names were met than there are items
    have atMost : visited.length ≤ model.items.keys.length :=
      (List.subperm_of_subset distinct known).length_le
    simp only [Table.keys, List.length_map] at atMost
    simp only [Table.size] at enough
    omega
  | succ steps ih =>
    cases next : model.nextUp? visited item with
    | none =>
      simp only [climb, next]
      exact .stop next
    | some parent =>
      simp only [climb, next]
      obtain ⟨_, unmet, found⟩ := (nextUp?_eq_some_iff keyed _ _ _).mp next
      refine .up next (ih (List.nodup_cons.mpr ⟨unmet, distinct⟩) ?_ ?_ parent)
      · apply List.cons_subset.mpr
        refine ⟨(model.items.contains_iff_mem_keys parent.name).mp ?_, known⟩
        simp [Table.contains, found]
      · simp only [List.length_cons]
        omega

theorem walk_ancestry {model : Model} (keyed : KeyedByName model.items) {item : Item}
    (found : model.items.find? item.name = some item) :
    Walk model [item.name] item (model.ancestry item) := by
  refine walk_climb keyed _ (by simp) ?_ ?_ item
  · apply List.cons_subset.mpr
    refine ⟨(model.items.contains_iff_mem_keys item.name).mp ?_, List.nil_subset _⟩
    simp [Table.contains, found]
  · simp

def chainNames (model : Model) (name : String) : List String :=
  (model.ancestryOf name).map (·.name)

/-- The name at which the chain of an item stops because no item has it. -/
def missingName? (model : Model) (name : String) : Option String :=
  (model.ancestryOf name).getLast?.bind model.missingParent?

/-- Where two models hold the same items under the names that the chain of an item asks for, the
chain is the same in both. -/
theorem ancestryOf_eq_of_same_items {before after : Model} (keyedBefore : KeyedByName before.items)
    (keyedAfter : KeyedByName after.items) (root : after.rootName = before.rootName) {name : String}
    (known : before.items.contains name)
    (same : ∀ asked, asked ∈ before.chainNames name ∨ before.missingName? name = some asked →
      after.items.find? asked = before.items.find? asked) :
    after.ancestryOf name = before.ancestryOf name := by
  obtain ⟨item, found⟩ := Option.isSome_iff_exists.mp known
  cases keyedBefore name item found
  have walk := walk_ancestry keyedBefore found
  have chain : before.ancestryOf item.name = before.ancestry item := by rw [ancestryOf, found]
  simp only [chainNames, missingName?, chain] at same
  have foundAfter : after.items.find? item.name = some item := by
    rw [same item.name (.inl (List.mem_map_of_mem walk.mem_self)), found]
  have chainAfter : after.ancestryOf item.name = after.ancestry item := by rw [ancestryOf, foundAfter]
  rw [chain, chainAfter]
  refine (walk_ancestry keyedAfter foundAfter).unique (walk.of_same_parents root ?_)
  intro level member parent above
  apply same parent
  rcases walk.parent_mem_or_missing keyedBefore member above with met | asked
  · rw [List.mem_singleton.mp met]
    exact .inl (List.mem_map_of_mem walk.mem_self)
  · exact asked

end ItemSchema.Model
