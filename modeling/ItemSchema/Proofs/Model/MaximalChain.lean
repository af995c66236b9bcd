import ItemSchema.Proofs.Model.Walk
import ItemSchema.Proofs.Model.WellKept
import Mathlib.Data.List.Chain

/-! The chain of an item goes up as far as it can without repeating a name.

Every level but the first is the item under the parent name of the level below
it. The chain ends at the first level whose parent is missing, unknown or in the
chain already, and nowhere else, whatever cycles the parents form.
-/

set_option autoImplicit false

namespace ItemSchema.Model

/-- One step up: an item and the item under its parent name. -/
def IsParent (model : Model) (item parent : Item) : Prop :=
  ∃ name, item.parentName? model.rootName = some name ∧ model.items.find? name = some parent

/-- No step leads from an item out of a list of names: it has no parent, or its parent is not an
item, or is among the names. -/
def EndsAt (model : Model) (names : List String) (item : Item) : Prop :=
  ∀ parent, item.parentName? model.rootName = some parent →
    model.items.find? parent = none ∨ parent ∈ names

/-- A chain of steps up from an item, without repetitions, that ends only where it must. -/
structure IsMaximalChain (model : Model) (item : Item) (chain : List Item) : Prop where
  head : chain.head? = some item
  distinct : (chain.map (·.name)).Nodup
  known : ∀ level ∈ chain, model.items.find? level.name = some level
  climbs : chain.IsChain model.IsParent
  ends_iff : ∀ below level above, chain = below ++ level :: above →
    (above = [] ↔ model.EndsAt ((below ++ [level]).map (·.name)) level)

theorem endsAt_congr (model : Model) {names others : List String}
    (same : ∀ name, name ∈ names ↔ name ∈ others) (item : Item) :
    model.EndsAt names item ↔ model.EndsAt others item := by
  simp only [EndsAt, same]

theorem mem_of_head?_split {first level : Item} {below above : List Item}
    (lowest : (below ++ level :: above).head? = some first) : first ∈ below ++ [level] := by
  cases below <;> simp_all

theorem IsParent.unique {model : Model} {item first second : Item} (left : model.IsParent item first)
    (right : model.IsParent item second) : first = second := by
  obtain ⟨name, above, found⟩ := left
  obtain ⟨other, aboveToo, foundToo⟩ := right
  cases above.symm.trans aboveToo
  exact Option.some.inj (found.symm.trans foundToo)

namespace Walk

variable {model : Model} {visited : List String} {item : Item} {chain : List Item}

theorem head?_eq (walk : Walk model visited item chain) : chain.head? = some item := by
  cases walk <;> rfl

/-- The names above an item were not met before it. -/
theorem nodup_names (keyed : KeyedByName model.items) (walk : Walk model visited item chain)
    (met : item.name ∈ visited) :
    (chain.map (·.name)).Nodup ∧ ∀ level ∈ chain.tail, level.name ∉ visited := by
  induction walk with
  | stop => simp
  | @up visited item parent above next rest ih =>
    obtain ⟨distinct, unmet⟩ := ih List.mem_cons_self
    obtain ⟨_, parentUnmet, _⟩ := (nextUp?_eq_some_iff keyed _ _ _).mp next
    obtain ⟨higher, rfl⟩ := List.head?_eq_some_iff.mp rest.head?_eq
    have outside : ∀ level ∈ parent :: higher, level.name ∉ visited := by
      intro level member
      rcases List.mem_cons.mp member with rfl | later
      · exact parentUnmet
      · exact fun earlier => unmet level later (List.mem_cons_of_mem _ earlier)
    refine ⟨List.nodup_cons.mpr ⟨?_, distinct⟩, outside⟩
    intro repeated
    obtain ⟨level, member, same⟩ := List.mem_map.mp repeated
    exact outside level member (same ▸ met)

theorem isChain (keyed : KeyedByName model.items) (walk : Walk model visited item chain) :
    chain.IsChain model.IsParent := by
  induction walk with
  | stop => exact .singleton _
  | up next rest ih =>
    obtain ⟨named, _, found⟩ := (nextUp?_eq_some_iff keyed _ _ _).mp next
    refine List.isChain_cons.mpr ⟨?_, ih⟩
    intro level first
    rw [rest.head?_eq] at first
    cases first
    exact ⟨_, named, found⟩

/-- A walk ends at a level exactly when no step leads from it out of the names met by then. -/
theorem ends_iff (keyed : KeyedByName model.items) (walk : Walk model visited item chain)
    (met : item.name ∈ visited) {below : List Item} {level : Item} {above : List Item}
    (split : chain = below ++ level :: above) :
    above = [] ↔ model.EndsAt (visited ++ (below ++ [level]).map (·.name)) level := by
  induction walk generalizing below with
  | @stop visited item top =>
    obtain ⟨rfl, rfl, rfl⟩ : below = [] ∧ item = level ∧ above = [] := by
      cases below <;> simp_all
    refine iff_of_true rfl fun parent named => ?_
    rcases (nextUp?_eq_none_iff model visited item).mp top parent named with earlier | missing
    · exact .inr (List.mem_append_left _ earlier)
    · exact .inl missing
  | @up visited item next higher found rest ih =>
    obtain ⟨named, unmet, known⟩ := (nextUp?_eq_some_iff keyed _ _ _).mp found
    cases below with
    | nil =>
      obtain ⟨rfl, rfl⟩ : item = level ∧ higher = above := by simpa using split
      refine iff_of_false ?_ fun ends => ?_
      · rintro rfl
        cases rest.mem_self
      · rcases ends next.name named with missing | repeated
        · simp [known] at missing
        · simp only [List.nil_append, List.map_cons, List.map_nil, List.mem_append,
            List.mem_singleton] at repeated
          rcases repeated with earlier | own
          · exact unmet earlier
          · exact unmet (own ▸ met)
    | cons first below =>
      obtain ⟨rfl, splitHigher⟩ : item = first ∧ higher = below ++ level :: above := by
        simpa using split
      rw [ih List.mem_cons_self splitHigher]
      -- the walk above begins with `next`, and the item was met before
      have nextName : next.name ∈ (below ++ [level]).map (·.name) :=
        List.mem_map_of_mem (mem_of_head?_split (splitHigher ▸ rest.head?_eq))
      apply endsAt_congr
      intro name
      simp only [List.cons_append, List.map_cons, List.mem_cons, List.mem_append]
      grind

end Walk

theorem isMaximalChain_ancestry {model : Model} (keyed : KeyedByName model.items) {item : Item}
    (found : model.items.find? item.name = some item) :
    model.IsMaximalChain item (model.ancestry item) := by
  have walk := walk_ancestry keyed found
  have met : item.name ∈ [item.name] := List.mem_singleton_self _
  refine ⟨walk.head?_eq, (walk.nodup_names keyed met).1, ?_, walk.isChain keyed, ?_⟩
  · exact fun level member => find?_of_mem_climb keyed _ _ found member
  · intro below level above split
    rw [walk.ends_iff keyed met split]
    have itemName : item.name ∈ (below ++ [level]).map (·.name) :=
      List.mem_map_of_mem (mem_of_head?_split (split ▸ walk.head?_eq))
    apply endsAt_congr
    intro name
    simp only [List.singleton_append, List.mem_cons]
    grind

theorem Reachable.isMaximalChain {model : Model} (reachable : model.Reachable) {item : Item}
    (held : item ∈ model.items.values) : model.IsMaximalChain item (model.ancestry item) :=
  isMaximalChain_ancestry reachable.keyedByName (reachable.find?_name held)

namespace IsMaximalChain

variable {model : Model} {item : Item} {chain : List Item}

/-- The names of a chain are distinct names of items. -/
theorem length_le_size (maximal : model.IsMaximalChain item chain) :
    chain.length ≤ model.items.size := by
  have listed : chain.map (·.name) ⊆ model.items.keys := by
    intro name member
    obtain ⟨level, inChain, rfl⟩ := List.mem_map.mp member
    apply (model.items.contains_iff_mem_keys level.name).mp
    simp [Table.contains, maximal.known level inChain]
  have atMost := (List.subperm_of_subset maximal.distinct listed).length_le
  rwa [List.length_map, Table.length_keys] at atMost

theorem endsAt_getLast (maximal : model.IsMaximalChain item chain) {last : Item}
    (isLast : chain.getLast? = some last) : model.EndsAt (chain.map (·.name)) last := by
  obtain ⟨below, rfl⟩ := List.getLast?_eq_some_iff.mp isLast
  exact (maximal.ends_iff below last [] rfl).mp rfl

/-- A chain that misses the root ends at an item with a parent of its own. -/
theorem root_mem_or_named_parent (maximal : model.IsMaximalChain item chain)
    (root : model.items.contains model.rootName) :
    model.rootName ∈ chain.map (·.name) ∨
      ∃ last parent, chain.getLast? = some last ∧ last.parent = some parent ∧
        (model.items.find? parent = none ∨ parent ∈ chain.map (·.name)) := by
  obtain ⟨above, rfl⟩ := List.head?_eq_some_iff.mp maximal.head
  obtain ⟨last, isLast⟩ : ∃ last, (item :: above).getLast? = some last :=
    ⟨_, List.getLast?_eq_some_getLast (List.cons_ne_nil item above)⟩
  have ends := maximal.endsAt_getLast isLast
  cases named : last.parent with
  | some parent =>
    exact .inr ⟨last, parent, isLast, named, ends parent (by simp [Item.parentName?, named])⟩
  | none =>
    left
    by_cases atRoot : last.name = model.rootName
    · rw [← atRoot]
      exact List.mem_map_of_mem (List.mem_of_getLast? isLast)
    · have implicit : last.parentName? model.rootName = some model.rootName := by
        simp [Item.parentName?, named, atRoot]
      have known : model.items.find? model.rootName ≠ none := Option.isSome_iff_ne_none.mp root
      exact (ends model.rootName implicit).resolve_left known

end IsMaximalChain

theorem contains_root_build {settings : Settings} (synthesized : settings.synthesize)
    (registry : Registry) (generation : Generation) :
    (build settings registry generation).items.contains settings.rootName := by
  rw [contains_items_build]
  exact .inr ⟨synthesized, .inl rfl⟩

/-- In every model that is built, the chain of every item is the maximal one without repetitions,
and has no more levels than there are items. Where the root is synthesized, a chain that does not
contain it ends at an item whose own parent is unknown or in the chain already. -/
theorem ancestry_build_isMaximalChain (settings : Settings) {registry : Registry}
    (reachable : registry.Reachable) (generation : Generation) (item : Item) :
    let model := build settings registry generation
    let chain := model.ancestry item
    item ∈ model.items.values →
      model.IsMaximalChain item chain ∧ chain.length ≤ model.items.size ∧
        (settings.synthesize →
          settings.rootName ∈ chain.map (·.name) ∨
            ∃ last parent, chain.getLast? = some last ∧ last.parent = some parent ∧
              (model.items.find? parent = none ∨ parent ∈ chain.map (·.name))) := by
  intro model chain member
  have maximal := (Reachable.build settings reachable generation).isMaximalChain member
  refine ⟨maximal, maximal.length_le_size, ?_⟩
  intro synthesized
  exact maximal.root_mem_or_named_parent (contains_root_build synthesized registry generation)

/-- The chain of an item leads into a cycle that misses the synthesized root. -/
theorem ancestry_build_isMaximalChain_into_cycle :
    let registry := Registry.ofDeclarations {}
      [.item { name := "Order", parent := some "Base" }, .item { name := "Base", parent := some "Part" },
        .item { name := "Part", parent := some "Base" }]
    let order : Item := { name := "Order", parent := some "Base" }
    let model := build {} registry 1
    order ∈ model.items.values ∧ model.IsMaximalChain order (model.ancestry order) ∧
      (model.ancestry order).map (·.name) = ["Order", "Base", "Part"] ∧
      ∃ last parent, (model.ancestry order).getLast? = some last ∧ last.parent = some parent ∧
        (model.items.find? parent = none ∨ parent ∈ (model.ancestry order).map (·.name)) := by
  intro registry order model
  have reachable : registry.Reachable := (Registry.Reachable.empty {}).registerAll _
  have member : order ∈ model.items.values := by decide
  obtain ⟨maximal, -, ending⟩ := ancestry_build_isMaximalChain {} reachable 1 order member
  have names : (model.ancestry order).map (·.name) = ["Order", "Base", "Part"] := by decide
  refine ⟨member, maximal, names, (ending rfl).resolve_left ?_⟩
  rw [names]
  decide

end ItemSchema.Model
