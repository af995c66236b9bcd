import ItemSchema.Proofs.Model.Ancestry
import ItemSchema.Proofs.Model.References
import ItemSchema.Resolution.Candidate

/-! The candidates for a feature of an item, read off the declarations alone.

On every level of the chain these are the attribute last declared there under the
name, and after it the relation ends that the first declarations of the relations
give to the level.
-/

set_option autoImplicit false

namespace ItemSchema

/-- The attribute that stands on an item: the last one of the name, with any blanks around it, in
the accepted declarations of the item. -/
def declaredAttribute? (declarations : List Declaration) (item feature : String) : Option Attribute :=
  (((itemDeclarations declarations item).flatMap (·.attributes)).filter
    (Text.trimmed? ·.name = some feature)).getLast?.bind (Attribute.ofDeclaration? item)

def RelationDeclaration.atSide (declaration : RelationDeclaration) : Side → EndDeclaration
  | .source => declaration.source
  | .target => declaration.target

/-- Whether one side of a declared relation is a feature of an item: it can be navigated, it has a
role and a type, and the type of the other side is the item. -/
def RelationDeclaration.gives (declaration : RelationDeclaration) (item feature : String)
    (side : Side) : Bool :=
  (declaration.atSide side).navigable &&
    (declaration.atSide side).qualifier.any
      (fun role => !Text.isBlank role && Text.equalsIgnoringCase role feature) &&
    (declaration.atSide side).typeName.any (!Text.isBlank ·) &&
    (declaration.atSide side.opposite).typeName.any (fun owner => !Text.isBlank owner && owner = item)

def RelationDeclaration.endsGiven (declaration : RelationDeclaration) (item feature : String) :
    List RelationEnd :=
  ([Side.source, Side.target].filter (declaration.gives item feature)).map fun side =>
    .ofDeclaration declaration.name side (declaration.atSide side)

/-- The ends given to an item by the first accepted declaration of every relation. -/
def declaredEnds (declarations : List Declaration) (item feature : String) : List RelationEnd :=
  (firstOfEach RelationDeclaration.name (relationDeclarations declarations)).flatMap
    (·.endsGiven item feature)

def declaredCandidates (declarations : List Declaration) (feature item : String) : List Candidate :=
  (declaredAttribute? declarations item feature).toList.map .ofAttribute ++
    (declaredEnds declarations item feature).map .ofEnd

theorem Text.any_bind_nonBlank? (text : Option String) (test : String → Bool) :
    (text.bind nonBlank?).any test = text.any fun given => !isBlank given && test given := by
  cases text with
  | none => rfl
  | some given => cases blank : isBlank given <;> simp [nonBlank?, blank]

namespace Relation

theorem atSide_ofDeclaration (declaration : RelationDeclaration) (side : Side) :
    (ofDeclaration declaration).atSide side =
      .ofDeclaration declaration.name side (declaration.atSide side) := by
  cases side <;> rfl

/-- What a declaration gives to an item is what the item gains from the relation built from it. -/
theorem gives_eq (declaration : RelationDeclaration) (item feature : String) (side : Side) :
    declaration.gives item feature side =
      (((ofDeclaration declaration).atSide side).isGainedBy
          ((ofDeclaration declaration).atSide side.opposite) item &&
        ((ofDeclaration declaration).atSide side).playsRole feature) := by
  have plays := Text.any_bind_nonBlank? (declaration.atSide side).qualifier
    (Text.equalsIgnoringCase · feature)
  have typed := Text.any_bind_nonBlank? (declaration.atSide side).typeName fun _ => true
  have owned := Text.any_bind_nonBlank? (declaration.atSide side.opposite).typeName
    fun owner => owner = item
  have isOwner : ∀ owner : Option String,
      (owner.any fun given => given = item) = decide (owner = some item) := by
    intro owner
    cases owner <;> simp
  simp only [Bool.and_true, Option.any_true] at typed
  rw [RelationDeclaration.gives, ← plays, ← typed, ← owned]
  simp only [atSide_ofDeclaration, RelationEnd.isGainedBy, RelationEnd.playsRole,
    RelationEnd.ofDeclaration, isOwner]
  -- an end in the role has a role, so asking for one besides changes nothing
  cases (declaration.atSide side).qualifier.bind Text.nonBlank? with
  | none => simp
  | some role =>
    simp only [Option.any_some, Option.isSome_some, Bool.and_true]
    ac_rfl

theorem filter_references_ofDeclaration (declaration : RelationDeclaration) (item feature : String) :
    (((ofDeclaration declaration).references.filter (·.1 = item)).map Prod.snd).filter
        (·.playsRole feature) = declaration.endsGiven item feature := by
  rw [filter_references, endsGainedBy_eq_map, List.filter_map, List.filter_filter,
    RelationDeclaration.endsGiven]
  simp only [← atSide_ofDeclaration]
  congr 1
  apply List.filter_congr
  intro side _
  rw [gives_eq, Bool.and_comm]
  rfl

end Relation

namespace Model

variable (settings : Settings) (declarations : List Declaration) (generation : Generation)

theorem filter_referencesOf_build (item feature : String) :
    ((build settings (Registry.ofDeclarations settings declarations) generation).referencesOf
      item).filter (·.playsRole feature) = declaredEnds declarations item feature := by
  rw [referencesOf_build, Registry.values_relations_ofDeclarations, List.flatMap_map,
    List.filter_flatMap, List.map_flatMap, List.filter_flatMap, declaredEnds]
  apply List.flatMap_congr
  intro declaration _
  exact Relation.filter_references_ofDeclaration declaration item feature

theorem ownAttribute?_mergeAll (policy : ParentPolicy) (name feature : String) :
    (Item.mergeAll policy { name } (itemDeclarations declarations name)).ownAttribute? feature =
      declaredAttribute? declarations name feature := by
  have last := Item.find?_attributeEntries name feature
    ((itemDeclarations declarations name).flatMap (·.attributes))
  rw [Item.ownAttribute?, Item.attributes_mergeAll, Table.find?_insertAll, last]
  simp [declaredAttribute?]

/-- A level has exactly the attributes declared under its name, also when it is synthesized. -/
theorem ownAttribute?_eq_declared {level : Item} (feature : String)
    (known : (build settings (Registry.ofDeclarations settings declarations) generation).items.find?
      level.name = some level) :
    level.ownAttribute? feature = declaredAttribute? declarations level.name feature := by
  rcases find?_items_build_cases known with merged | ⟨undeclared, _, bare⟩
  · rw [merged, Item.name_mergeAll, ownAttribute?_mergeAll]
  · simp [Item.ownAttribute?, bare, declaredAttribute?, undeclared]

theorem candidatesAt_eq_declared {level : Item} (feature : String)
    (known : (build settings (Registry.ofDeclarations settings declarations) generation).items.find?
      level.name = some level) :
    (build settings (Registry.ofDeclarations settings declarations) generation).candidatesAt feature
      level = declaredCandidates declarations feature level.name := by
  rw [candidatesAt, filter_referencesOf_build, ownAttribute?_eq_declared _ _ _ _ known,
    declaredCandidates]

end Model

/-- An item has an attribute when some accepted declaration of it names the attribute, whatever
blanks stand around the name. -/
theorem isSome_declaredAttribute?_iff (declarations : List Declaration) (item feature : String) :
    (declaredAttribute? declarations item feature).isSome ↔
      ∃ declaration, Declaration.item declaration ∈ declarations ∧
        (Declaration.item declaration).isAccepted ∧ declaration.name = item ∧
        ∃ written ∈ declaration.attributes,
          ¬ Text.isBlank written.name ∧ Text.trim written.name = feature := by
  have listed : ∀ written, written ∈ ((itemDeclarations declarations item).flatMap
      (·.attributes)).filter (Text.trimmed? ·.name = some feature) ↔
      ∃ declaration ∈ itemDeclarations declarations item, written ∈ declaration.attributes ∧
        ¬ Text.isBlank written.name ∧ Text.trim written.name = feature := by
    intro written
    simp only [List.mem_filter, List.mem_flatMap, decide_eq_true_eq, Text.trimmed?_eq_some_iff]
    tauto
  unfold declaredAttribute?
  constructor
  · intro present
    obtain ⟨built, found⟩ := Option.isSome_iff_exists.mp present
    obtain ⟨last, isLast, _⟩ := Option.bind_eq_some_iff.mp found
    obtain ⟨declaration, member, rest⟩ := (listed last).mp (List.mem_of_getLast? isLast)
    obtain ⟨given, accepted, named⟩ := (mem_itemDeclarations _ _ _).mp member
    exact ⟨declaration, given, accepted, named, last, rest⟩
  · rintro ⟨declaration, given, accepted, named, written, rest⟩
    have member := (mem_itemDeclarations _ _ _).mpr ⟨given, accepted, named⟩
    have counted := (listed written).mpr ⟨declaration, member, rest⟩
    have isLast := List.getLast?_eq_some_getLast (List.ne_nil_of_mem counted)
    obtain ⟨_, _, _, notBlank, trimmed⟩ := (listed _).mp (List.mem_of_getLast? isLast)
    rw [isLast, Option.bind_some, Attribute.ofDeclaration?,
      (Text.trimmed?_eq_some_iff _ feature).mpr ⟨notBlank, trimmed⟩]
    rfl

/-- On every level of the chain of an item, the candidates are the declared ones. An attribute is
declared when some accepted declaration of the item has it. -/
theorem Model.candidates_eq_declared (settings : Settings) (declarations : List Declaration)
    (generation : Generation) (name feature : String) (inherited : Bool) :
    let model := Model.build settings (Registry.ofDeclarations settings declarations) generation
    (model.candidates { ownerKind := .item, owner := name, feature, inherited } =
      if model.items.contains name then
        (if inherited then model.ancestryOf name else (model.ancestryOf name).take 1).flatMap
          fun level => declaredCandidates declarations feature level.name
      else []) ∧
    ∀ item, (declaredAttribute? declarations item feature).isSome ↔
      ∃ declaration, Declaration.item declaration ∈ declarations ∧
        (Declaration.item declaration).isAccepted ∧ declaration.name = item ∧
        ∃ written ∈ declaration.attributes,
          ¬ Text.isBlank written.name ∧ Text.trim written.name = feature := by
  intro model
  refine ⟨?_, fun item => isSome_declaredAttribute?_iff declarations item feature⟩
  have keyed : KeyedByName model.items := keyedByName_build settings declarations generation
  cases found : model.items.find? name with
  | none => simp [candidates, Table.contains, found]
  | some item =>
    have chain : model.ancestryOf name = model.ancestry item := by rw [ancestryOf, found]
    have asked : model.candidates { ownerKind := .item, owner := name, feature, inherited } =
        (model.levels item inherited).flatMap (model.candidatesAt feature) := by
      simp only [candidates, found, candidatesOnItem]
    have present : model.items.contains name = true := by simp [Table.contains, found]
    rw [asked, levels_eq_take, if_pos present, chain]
    apply List.flatMap_congr
    intro level member
    have inChain : level ∈ model.ancestryOf name := by
      rw [chain]
      cases inherited with
      | true => exact member
      | false => exact List.mem_of_mem_take member
    exact candidatesAt_eq_declared settings declarations generation feature
      (find?_of_mem_ancestryOf keyed inChain)

-- A cycle of two items, the second of which overrides an attribute and has a relation to itself.
example :
    let declarations : List Declaration :=
      [.item { name := "A", parent := some "B" },
        .item { name := "B", parent := some "A", attributes := [{ name := "f", typeRef := some "X" }] },
        .item { name := "B", attributes := [{ name := " f ", typeRef := some "Y" }] },
        .relation { name := "R", source := .role "F" "B", target := .role "f" "B" }]
    let model := Model.build {} (Registry.ofDeclarations {} declarations) 1
    (model.candidates { ownerKind := .item, owner := "A", feature := "f", inherited := true }).map
        (·.typeName?) = [some "Y", some "B", some "B"] := by
  decide

end ItemSchema
