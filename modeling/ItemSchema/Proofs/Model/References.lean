import ItemSchema.Model.Basic
import ItemSchema.Proofs.Registry.Reachable
import Mathlib.Data.List.Nodup

/-! The relation ends that an item gains as features, read off the relations.

An end goes to one item at most, the type of the end on the opposite side. So the
table that a model keeps lists every end at most once, and all the ends of one
relation that go to one item, as they do in a relation of an item with itself,
stand together under that item.
-/

set_option autoImplicit false

namespace ItemSchema

/-- Of elements that all differ in their class, only one has a given class. -/
theorem flatMap_eq_of_nodup_map {α β κ : Type} [DecidableEq κ] (classOf : α → κ) (parts : α → List β)
    {elements : List α} (distinct : (elements.map classOf).Nodup) {element : α}
    (member : element ∈ elements) :
    elements.flatMap (fun other => if classOf other = classOf element then parts other else []) =
      parts element := by
  induction elements with
  | nil => cases member
  | cons first rest ih =>
    simp only [List.map_cons, List.nodup_cons] at distinct
    rw [List.flatMap_cons]
    rcases List.mem_cons.mp member with rfl | later
    · have none : rest.flatMap (fun other => if classOf other = classOf element then parts other else [])
          = [] := by
        rw [List.flatMap_eq_nil_iff]
        intro other held
        rw [if_neg]
        intro same
        exact distinct.1 (same ▸ List.mem_map_of_mem held)
      rw [if_pos rfl, none, List.append_nil]
    · have apart : classOf first ≠ classOf element := by
        intro same
        exact distinct.1 (same ▸ List.mem_map_of_mem later)
      rw [if_neg apart, ih distinct.2 later, List.nil_append]

/-- Whether an end is a feature of an item: it can be navigated, it has a role and a type, and the
end on the opposite side has the item as its type. -/
def RelationEnd.isGainedBy (relationEnd opposite : RelationEnd) (item : String) : Bool :=
  relationEnd.navigable && relationEnd.qualifier.isSome && relationEnd.typeName.isSome &&
    opposite.typeName = some item

/-- The relation and the side that an end belongs to. -/
def RelationEnd.label (relationEnd : RelationEnd) : String × Side :=
  (relationEnd.relation, relationEnd.side)

namespace Relation

theorem referenceAt?_eq_some_iff (relation : Relation) (side : Side) (owner : String)
    (relationEnd : RelationEnd) :
    relation.referenceAt? side = some (owner, relationEnd) ↔
      relation.atSide side = relationEnd ∧ relationEnd.navigable ∧ relationEnd.isWellFormed ∧
        (relation.atSide side.opposite).typeName = some owner := by
  simp only [referenceAt?, Option.ite_none_right_eq_some, Bool.and_eq_true, Option.map_eq_some_iff,
    Prod.mk.injEq]
  constructor
  · rintro ⟨⟨navigable, wellFormed⟩, found, typed, rfl, rfl⟩
    exact ⟨rfl, navigable, wellFormed, typed⟩
  · rintro ⟨rfl, navigable, wellFormed, typed⟩
    exact ⟨⟨navigable, wellFormed⟩, owner, typed, rfl, rfl⟩

/-- The ends that an item gains from a relation, the source before the target. -/
def endsGainedBy (relation : Relation) (item : String) : List RelationEnd :=
  (if relation.source.isGainedBy relation.target item then [relation.source] else []) ++
    if relation.target.isGainedBy relation.source item then [relation.target] else []

theorem endsGainedBy_eq_map (relation : Relation) (item : String) :
    relation.endsGainedBy item =
      ([Side.source, Side.target].filter fun side =>
        (relation.atSide side).isGainedBy (relation.atSide side.opposite) item).map relation.atSide := by
  unfold endsGainedBy
  cases source : relation.source.isGainedBy relation.target item <;>
    cases target : relation.target.isGainedBy relation.source item <;>
    simp [atSide, Side.opposite, source, target]

theorem mem_endsGainedBy_iff (relation : Relation) (item : String) (gained : RelationEnd) :
    gained ∈ relation.endsGainedBy item ↔
      ∃ side, relation.atSide side = gained ∧ gained.isGainedBy (relation.atSide side.opposite) item := by
  simp only [endsGainedBy_eq_map, List.mem_map, List.mem_filter]
  constructor
  · rintro ⟨side, ⟨-, isGained⟩, rfl⟩
    exact ⟨side, rfl, isGained⟩
  · rintro ⟨side, rfl, isGained⟩
    exact ⟨side, ⟨by cases side <;> simp, isGained⟩, rfl⟩

theorem isGainedBy_iff (relation : Relation) (item : String) (side : Side) :
    (relation.atSide side).isGainedBy (relation.atSide side.opposite) item ↔
      relation.referenceAt? side = some (item, relation.atSide side) := by
  simp only [referenceAt?_eq_some_iff, RelationEnd.isGainedBy, RelationEnd.isWellFormed,
    Bool.and_eq_true, decide_eq_true_eq]
  tauto

/-- A side gives its end to the item, or nothing. -/
theorem filter_referenceAt? (relation : Relation) (item : String) (side : Side) :
    ((relation.referenceAt? side).toList.filter (·.1 = item)).map Prod.snd =
      if (relation.atSide side).isGainedBy (relation.atSide side.opposite) item then
        [relation.atSide side]
      else [] := by
  have gained := relation.isGainedBy_iff item side
  cases held : relation.referenceAt? side with
  | none => simp_all
  | some reference =>
    obtain ⟨owner, relationEnd⟩ := reference
    obtain ⟨rfl, -⟩ := (referenceAt?_eq_some_iff _ _ _ _).mp held
    by_cases own : owner = item <;> simp_all

theorem filter_references (relation : Relation) (item : String) :
    (relation.references.filter (·.1 = item)).map Prod.snd = relation.endsGainedBy item := by
  have sides : relation.references =
      (relation.referenceAt? .source).toList ++ (relation.referenceAt? .target).toList := by
    cases source : relation.referenceAt? .source <;> cases target : relation.referenceAt? .target <;>
      simp [references, source, target]
  rw [sides, List.filter_append, List.map_append, filter_referenceAt?, filter_referenceAt?]
  rfl

/-- Both ends carry the name of the relation and the side they are on. -/
def IsLabelled (relation : Relation) : Prop :=
  ∀ side, (relation.atSide side).relation = relation.name ∧ (relation.atSide side).side = side

theorem isLabelled_ofDeclaration (declaration : RelationDeclaration) :
    (ofDeclaration declaration).IsLabelled := by
  intro side
  cases side <;> exact ⟨rfl, rfl⟩

theorem filter_endsGainedBy {relation : Relation} (labelled : relation.IsLabelled) (item asked : String) :
    (relation.endsGainedBy item).filter (·.relation = asked) =
      if relation.name = asked then relation.endsGainedBy item else [] := by
  have named : ∀ gained ∈ relation.endsGainedBy item, gained.relation = relation.name := by
    intro gained member
    obtain ⟨side, rfl, -⟩ := (relation.mem_endsGainedBy_iff item gained).mp member
    exact (labelled side).1
  split
  · next same =>
    rw [List.filter_eq_self]
    intro gained member
    simpa [named gained member] using same
  · next apart =>
    rw [List.filter_eq_nil_iff]
    intro gained member
    simpa [named gained member] using apart

theorem labels_references_sublist {relation : Relation} (labelled : relation.IsLabelled) :
    (relation.references.map (·.2.label)).Sublist
      ([Side.source, Side.target].map (relation.name, ·)) := by
  unfold references
  induction [Side.source, Side.target] with
  | nil => exact .slnil
  | cons side rest ih =>
    cases held : relation.referenceAt? side with
    | none => simpa [held] using ih.cons _
    | some reference =>
      obtain ⟨owner, relationEnd⟩ := reference
      obtain ⟨rfl, -⟩ := (referenceAt?_eq_some_iff _ _ _ _).mp held
      have own : (relation.atSide side).label = (relation.name, side) :=
        Prod.ext_iff.mpr (labelled side)
      simpa [held, own] using ih

/-- Relations with different names add no end twice. -/
theorem nodup_labels {relations : List Relation} (labelled : ∀ relation ∈ relations, relation.IsLabelled)
    (distinct : (relations.map Relation.name).Nodup) :
    ((relations.flatMap references).map (·.2.label)).Nodup := by
  rw [List.map_flatMap, List.nodup_flatMap]
  constructor
  · intro relation member
    refine (labels_references_sublist (labelled relation member)).nodup ?_
    simp
  · refine (List.pairwise_map.mp distinct).imp_of_mem ?_
    intro first second isFirst isSecond apart
    refine List.disjoint_left.mpr fun shared inFirst inSecond => ?_
    have ofFirst := (labels_references_sublist (labelled first isFirst)).subset inFirst
    have ofSecond := (labels_references_sublist (labelled second isSecond)).subset inSecond
    obtain ⟨side, -, rfl⟩ := List.mem_map.mp ofFirst
    obtain ⟨other, -, same⟩ := List.mem_map.mp ofSecond
    exact apart (congrArg Prod.fst same).symm

end Relation

namespace Model

/-- Adding an end to one list of a table leaves all others where they are. -/
theorem flatten_place_perm (key : String) (added : RelationEnd) (entries : List (String × List RelationEnd)) :
    ((Table.place key ((Table.lookup key entries).getD [] ++ [added]) entries).map Prod.snd).flatten.Perm
      ((entries.map Prod.snd).flatten ++ [added]) := by
  induction entries with
  | nil => simp [Table.place, Table.lookup]
  | cons entry rest ih =>
    obtain ⟨other, old⟩ := entry
    by_cases same : other = key
    · simp only [Table.place, Table.lookup, same, if_true, Option.getD_some, List.map_cons,
        List.flatten_cons, List.append_assoc]
      exact List.perm_append_comm.append_left old
    · simpa [Table.place, Table.lookup, same] using ih.append_left old

theorem flatten_foldl_addReference_perm (references : List (String × RelationEnd))
    (table : Table String (List RelationEnd)) :
    (references.foldl addReference table).values.flatten.Perm
      (table.values.flatten ++ references.map Prod.snd) := by
  induction references generalizing table with
  | nil => simp
  | cons reference rest ih =>
    have added : (addReference table reference).values.flatten.Perm
        (table.values.flatten ++ [reference.2]) := flatten_place_perm _ _ _
    rw [List.foldl_cons, List.map_cons]
    refine (ih _).trans ?_
    simpa using added.append_right (rest.map Prod.snd)

theorem find?_foldl_addReference (references : List (String × RelationEnd))
    (table : Table String (List RelationEnd)) (name : String) :
    ((references.foldl addReference table).find? name).getD [] =
      (table.find? name).getD [] ++ (references.filter (·.1 = name)).map Prod.snd := by
  induction references generalizing table with
  | nil => simp
  | cons reference rest ih =>
    rw [List.foldl_cons, ih, addReference, Table.find?_insert]
    by_cases own : reference.1 = name <;> simp [own]

/-- The ends of a name are those that some relation adds to it, in the order of the relations. -/
theorem referencesOf_build (settings : Settings) (registry : Registry) (generation : Generation)
    (name : String) :
    (build settings registry generation).referencesOf name =
      ((registry.relations.values.flatMap Relation.references).filter (·.1 = name)).map Prod.snd := by
  have indexed := find?_foldl_addReference (registry.relations.values.flatMap Relation.references)
    .empty name
  simpa [referencesOf, build, indexReferences] using indexed

theorem referencesOf_build_eq_flatMap (settings : Settings) (registry : Registry)
    (generation : Generation) (name : String) :
    (build settings registry generation).referencesOf name =
      registry.relations.values.flatMap (·.endsGainedBy name) := by
  rw [referencesOf_build, List.filter_flatMap, List.map_flatMap]
  simp only [Relation.filter_references]

section Reachable

variable (settings : Settings) {registry : Registry} (reachable : registry.Reachable)
  (generation : Generation)
include reachable

omit settings generation in
theorem isLabelled_of_reachable {relation : Relation} (held : relation ∈ registry.relations.values) :
    relation.IsLabelled := by
  obtain ⟨declared, rfl⟩ := reachable.exists_declared_relation held
  exact Relation.isLabelled_ofDeclaration declared

theorem nodup_labels_references_build :
    ((build settings registry generation).references.values.flatten.map RelationEnd.label).Nodup := by
  have distinct := reachable.nodup_keys_relations
  rw [reachable.keys_relations] at distinct
  have listed : (build settings registry generation).references.values.flatten.Perm
      ((registry.relations.values.flatMap Relation.references).map Prod.snd) :=
    flatten_foldl_addReference_perm _ .empty
  rw [(listed.map RelationEnd.label).nodup_iff, List.map_map]
  exact Relation.nodup_labels (fun relation => isLabelled_of_reachable reachable) distinct

/-- An end that an item has gained is found again through the relation that it names. -/
theorem exists_relation_of_mem_referencesOf {name : String} {gained : RelationEnd}
    (member : gained ∈ (build settings registry generation).referencesOf name) :
    ∃ relation, registry.relations.find? gained.relation = some relation ∧
      relation.atSide gained.side = gained ∧
      (relation.atSide gained.side.opposite).typeName = some name := by
  rw [referencesOf_build_eq_flatMap] at member
  obtain ⟨relation, held, fromRelation⟩ := List.mem_flatMap.mp member
  obtain ⟨side, rfl, isGained⟩ := (relation.mem_endsGainedBy_iff name gained).mp fromRelation
  obtain ⟨ofRelation, onSide⟩ := isLabelled_of_reachable reachable held side
  have typed := ((Relation.referenceAt?_eq_some_iff _ _ _ _).mp
    ((relation.isGainedBy_iff name side).mp isGained)).2.2.2
  rw [ofRelation, onSide]
  exact ⟨relation, reachable.find?_relation held, rfl, typed⟩

/-- Of all the ends of an item, those of one relation are the ones it gains from that relation. -/
theorem filter_referencesOf_eq_endsGainedBy {relation : Relation}
    (held : relation ∈ registry.relations.values) (name : String) :
    ((build settings registry generation).referencesOf name).filter (·.relation = relation.name) =
      relation.endsGainedBy name := by
  have distinct := reachable.nodup_keys_relations
  rw [reachable.keys_relations] at distinct
  rw [referencesOf_build_eq_flatMap, List.filter_flatMap]
  refine Eq.trans (List.flatMap_congr fun other member => ?_)
    (flatMap_eq_of_nodup_map Relation.name (·.endsGainedBy name) distinct held)
  exact Relation.filter_endsGainedBy (isLabelled_of_reachable reachable member) name relation.name

/-- The table of a model lists the ends that each item gains, relation by relation. It lists no end
twice or under two items. A relation of an item with itself gives the item all the ends that can be
navigated in a role, and every end listed is the one that the relation it names has on its side. -/
theorem referencesOf_build_exact :
    let model := build settings registry generation
    (∀ name, model.referencesOf name = registry.relations.values.flatMap (·.endsGainedBy name)) ∧
    (model.references.values.flatten.map RelationEnd.label).Nodup ∧
    (∀ first second gained other, gained ∈ model.referencesOf first →
      other ∈ model.referencesOf second → gained.label = other.label → first = second) ∧
    (∀ relation ∈ registry.relations.values, ∀ name, relation.source.typeName = some name →
      relation.target.typeName = some name →
      (model.referencesOf name).filter (·.relation = relation.name) =
        [relation.source, relation.target].filter fun own => own.navigable && own.qualifier.isSome) ∧
    ∀ name, ∀ gained ∈ model.referencesOf name, ∃ relation,
      model.relations.find? gained.relation = some relation ∧ relation.atSide gained.side = gained := by
  intro model
  refine ⟨referencesOf_build_eq_flatMap settings registry generation,
    nodup_labels_references_build settings reachable generation, ?_, ?_, ?_⟩
  · intro first second gained other inFirst inSecond same
    obtain ⟨sameRelation, sameSide⟩ := Prod.ext_iff.mp same
    obtain ⟨relation, found, -, typed⟩ :=
      exists_relation_of_mem_referencesOf settings reachable generation inFirst
    obtain ⟨otherRelation, foundOther, -, typedOther⟩ :=
      exists_relation_of_mem_referencesOf settings reachable generation inSecond
    rw [show gained.relation = other.relation from sameRelation, foundOther] at found
    cases found
    rw [show gained.side = other.side from sameSide, typedOther] at typed
    exact (Option.some.inj typed).symm
  · intro relation held name sourceType targetType
    rw [filter_referencesOf_eq_endsGainedBy settings reachable generation held]
    cases source : relation.source.navigable && relation.source.qualifier.isSome <;>
      cases target : relation.target.navigable && relation.target.qualifier.isSome <;>
      simp [Relation.endsGainedBy, RelationEnd.isGainedBy, source, target, sourceType, targetType]
  · intro name gained member
    obtain ⟨relation, found, isEnd, -⟩ :=
      exists_relation_of_mem_referencesOf settings reachable generation member
    exact ⟨relation, found, isEnd⟩

end Reachable

/-- A relation of an item with itself, one without a role on its target, and one that is declared
twice, with another type the second time. -/
theorem referencesOf_build_exact_with_itself :
    let declarations : List Declaration :=
      [.relation { name := "Tree", source := .role "parent" "Node", target := .role "children" "Node" },
        .relation { name := "Owner", source := .role "owner" "User", target := { typeName := some "Node" } },
        .relation { name := "Owner", source := .role "owner" "User", target := .role "nodes" "Other" }]
    let registry := Registry.ofDeclarations {} declarations
    let model := build {} registry 1
    let tree := Relation.ofDeclaration
      { name := "Tree", source := .role "parent" "Node", target := .role "children" "Node" }
    (tree ∈ registry.relations.values ∧ tree.source.typeName = some "Node" ∧
      tree.target.typeName = some "Node") ∧
      (model.referencesOf "Node").filter (·.relation = "Tree") = [tree.source, tree.target] ∧
      (model.references.values.flatten.map RelationEnd.label).Nodup ∧
      (model.referencesOf "Node").map RelationEnd.label =
        [("Tree", .source), ("Tree", .target), ("Owner", .source)] := by
  intro declarations registry model tree
  have held : tree ∈ registry.relations.values := by decide
  obtain ⟨-, distinct, -, both, -⟩ :=
    referencesOf_build_exact {} ((Registry.Reachable.empty {}).registerAll declarations) 1
  exact ⟨⟨held, rfl, rfl⟩, both tree held "Node" rfl rfl, distinct, by decide⟩

end Model

end ItemSchema
