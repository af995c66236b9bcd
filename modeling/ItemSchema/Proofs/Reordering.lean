import ItemSchema.Proofs.Model.References
import ItemSchema.Proofs.Registry.Slice
import ItemSchema.Proofs.Resolution.FeatureQueries
import ItemSchema.Proofs.Resolution.Outcome

/-! The order of unrelated declarations does not matter.

Two lists of declarations that agree on the declarations of every single record
give registries with the same slices. The models built from them find the same
records under every name and walk the same chains. Only the relation ends that an
item gains may come in another order, and so may the candidates for a feature, but
never their number and never the order of the attributes among them.
-/

set_option autoImplicit false

namespace ItemSchema

/-- Whether two lists hold the declarations of every record in the same order. -/
def Declaration.Reordered (first second : List Declaration) : Prop :=
  ∀ kind name, first.filter (·.isOf kind name) = second.filter (·.isOf kind name)

/-- Neighbours that declare different records may change places. -/
theorem Declaration.reordered_swap (before after : List Declaration) {first second : Declaration}
    (unrelated : first.kind ≠ second.kind ∨ first.name ≠ second.name) :
    Reordered (before ++ first :: second :: after) (before ++ second :: first :: after) := by
  intro kind name
  have notBoth : ¬ (first.isOf kind name ∧ second.isOf kind name) := by
    simp only [isOf, Bool.and_eq_true, decide_eq_true_eq]
    rintro ⟨⟨rfl, rfl⟩, sameKind, sameName⟩
    exact unrelated.elim (fun differ => differ sameKind.symm) (fun differ => differ sameName.symm)
  rw [List.filter_append, List.filter_append]
  congr 1
  cases isFirst : first.isOf kind name <;> cases isSecond : second.isOf kind name <;>
    simp_all

namespace Registry

/-- Registries that cannot be told apart by looking at one record at a time. -/
def Alike (first second : Registry) : Prop :=
  ∀ kind name, first.slice kind name = second.slice kind name

theorem alike_of_reordered (settings : Settings) {first second : List Declaration}
    (reordered : Declaration.Reordered first second) :
    (ofDeclarations settings first).Alike (ofDeclarations settings second) := by
  intro kind name
  rw [slice_ofDeclarations, slice_ofDeclarations, reordered]

namespace Alike

variable {first second : Registry} (alike : first.Alike second) (name : String)
include alike

theorem items : first.items.slice name = second.items.slice name := by
  simpa [slice] using congrArg Registry.items (alike .item name)

theorem enumerations : first.enumerations.slice name = second.enumerations.slice name := by
  simpa [slice] using congrArg Registry.enumerations (alike .enumeration name)

theorem relations : first.relations.slice name = second.relations.slice name := by
  simpa [slice] using congrArg Registry.relations (alike .relation name)

theorem collections : first.collections.slice name = second.collections.slice name := by
  simpa [slice] using congrArg Registry.collections (alike .collection name)

theorem atomics : first.atomics.slice name = second.atomics.slice name := by
  simpa [slice] using congrArg Registry.atomics (alike .atomic name)

theorem maps : first.maps.slice name = second.maps.slice name := by
  simpa [slice] using congrArg Registry.maps (alike .map name)

omit name

theorem conflicts_perm : first.conflicts.Perm second.conflicts := by
  apply perm_of_filter_eq fun conflict => (conflict.kind, conflict.name)
  rintro ⟨kind, name⟩
  have same := congrArg Registry.conflicts (alike kind name)
  simpa [slice, Conflict.isOf] using same

end Alike

end Registry

namespace Candidate

/-- Two orders of the same candidates that do not differ in the order of the attributes. -/
structure Rearranged (first second : List Candidate) : Prop where
  perm : first.Perm second
  attributes : first.filterMap attribute? = second.filterMap attribute?

theorem Rearranged.refl (candidates : List Candidate) : Rearranged candidates candidates :=
  ⟨.refl _, rfl⟩

theorem Rearranged.flatMap {first second : Item → List Candidate} (levels : List Item)
    (rearranged : ∀ level, Rearranged (first level) (second level)) :
    Rearranged (levels.flatMap first) (levels.flatMap second) where
  perm := List.Perm.flatMap_left levels fun level _ => (rearranged level).perm
  attributes := by
    simp only [List.filterMap_flatMap, (rearranged _).attributes]

end Candidate

theorem Resolution.only_eq_of_perm (question : Question) {first second : List Candidate}
    (perm : first.Perm second) : only question first = only question second := by
  match first, perm with
  | [], perm => rw [perm.nil_eq]
  | [candidate], perm => rw [List.singleton_perm.mp perm]
  | _ :: _ :: _, perm =>
    match second, perm.length_eq with
    | _ :: _ :: _, length => simp only [only, length]

namespace Model

/-- Models that cannot be told apart by looking at one name at a time, up to the order of the
relation ends under it. -/
structure Alike (first second : Model) : Prop where
  rootName : first.rootName = second.rootName
  linkName : first.linkName = second.linkName
  items : ∀ name, first.items.slice name = second.items.slice name
  enumerations : ∀ name, first.enumerations.slice name = second.enumerations.slice name
  relations : ∀ name, first.relations.slice name = second.relations.slice name
  references : ∀ name, (first.referencesOf name).Perm (second.referencesOf name)

theorem slice_synthesize (root link : String) (first second : Table String Item)
    (same : ∀ name, first.slice name = second.slice name) (name : String) :
    (synthesize root link first).slice name = (synthesize root link second).slice name := by
  simp only [synthesize, Table.slice_insertIfNew, same]

theorem alike_build (settings : Settings) {first second : Registry} (alike : first.Alike second)
    (generation : Generation) :
    (build settings first generation).Alike (build settings second generation) where
  rootName := rfl
  linkName := rfl
  items name := by
    unfold build
    dsimp only
    split
    · exact slice_synthesize _ _ _ _ alike.items name
    · exact alike.items name
  enumerations := alike.enumerations
  relations := alike.relations
  references name := by
    have relations : first.relations.values.Perm second.relations.values :=
      (Table.entries_perm_of_slice_eq alike.relations).map Prod.snd
    rw [referencesOf_build, referencesOf_build]
    exact ((relations.flatMap_right Relation.references).filter _).map Prod.snd

namespace Alike

variable {first second : Model} (alike : first.Alike second)
include alike

theorem find?_items (name : String) : first.items.find? name = second.items.find? name :=
  Table.find?_eq_of_slice_eq (alike.items name)

theorem nextUp?_eq (visited : List String) (item : Item) :
    first.nextUp? visited item = second.nextUp? visited item := by
  simp only [nextUp?, alike.rootName, alike.find?_items]

theorem climb_eq (steps : Nat) (visited : List String) (item : Item) :
    first.climb steps visited item = second.climb steps visited item := by
  induction steps generalizing visited item with
  | zero => rfl
  | succ steps ih => simp only [climb, alike.nextUp?_eq, ih]

theorem ancestry_eq (item : Item) : first.ancestry item = second.ancestry item := by
  have sizes : first.items.size = second.items.size :=
    (Table.entries_perm_of_slice_eq alike.items).length_eq
  rw [ancestry, ancestry, sizes, alike.climb_eq]

theorem levels_eq (item : Item) (inherited : Bool) :
    first.levels item inherited = second.levels item inherited := by
  simp only [levels, alike.ancestry_eq]

theorem rearranged_candidatesAt (feature : String) (level : Item) :
    Candidate.Rearranged (first.candidatesAt feature level) (second.candidatesAt feature level) where
  perm := (((alike.references level.name).filter _).map Candidate.ofEnd).append_left _
  attributes := by
    simp [candidatesAt, Function.comp_def, Candidate.attribute?]

theorem rearranged_candidatesOnItem (item : Item) (feature : String) (inherited : Bool) :
    Candidate.Rearranged (first.candidatesOnItem item feature inherited)
      (second.candidatesOnItem item feature inherited) := by
  rw [candidatesOnItem, candidatesOnItem, alike.levels_eq]
  exact .flatMap _ fun level => alike.rearranged_candidatesAt feature level

theorem rearranged_candidatesOnRelation (relation : Relation) (feature : String) :
    Candidate.Rearranged (first.candidatesOnRelation relation feature)
      (second.candidatesOnRelation relation feature) := by
  unfold candidatesOnRelation
  rw [alike.linkName, alike.find?_items]
  split
  · exact .refl _
  · split
    · exact alike.rearranged_candidatesOnItem _ feature true
    · exact .refl _

theorem rearranged_candidates (question : Question) :
    Candidate.Rearranged (first.candidates question) (second.candidates question) := by
  have enumerations := Table.find?_eq_of_slice_eq (alike.enumerations question.owner)
  have relations := Table.find?_eq_of_slice_eq (alike.relations question.owner)
  unfold candidates
  rw [alike.find?_items, enumerations, relations]
  cases question.ownerKind with
  | item =>
    dsimp only
    split
    · exact alike.rearranged_candidatesOnItem _ _ _
    · exact .refl _
  | relation =>
    dsimp only
    split
    · exact alike.rearranged_candidatesOnRelation _ _
    · exact .refl _
  | enumeration => exact .refl _

theorem ownerKind?_eq (name : String) : first.ownerKind? name = second.ownerKind? name := by
  have items : first.items.contains name = second.items.contains name :=
    congrArg Option.isSome (alike.find?_items name)
  have relations : first.relations.contains name = second.relations.contains name :=
    congrArg Option.isSome (Table.find?_eq_of_slice_eq (alike.relations name))
  have enumerations : first.enumerations.contains name = second.enumerations.contains name :=
    congrArg Option.isSome (Table.find?_eq_of_slice_eq (alike.enumerations name))
  simp only [ownerKind?, items, relations, enumerations]

theorem resolveSingle_eq (signal : Signal) (request : Request) :
    (Resolution.resolveSingle first signal request {}).1 =
      (Resolution.resolveSingle second signal request {}).1 := by
  have missed : ∀ model, Resolution.cached? model request .empty = none := by
    intro model
    cases asking : request.occurrence <;> simp [Resolution.cached?, asking, Cache.get?, Cache.empty]
  rw [Resolution.resolveSingle_of_missed request {} (missed first),
    Resolution.resolveSingle_of_missed request {} (missed second),
    Resolution.only_eq_of_perm _ (alike.rearranged_candidates request.toQuestion).perm]

end Alike

/-- Lists of declarations that differ only in how the declarations of different records are mixed
lead to the same records and owner kinds, to the same conflicts, relation ends and candidates in
some order, with the attributes in the same order, and so to the same strict resolutions. -/
theorem build_eq_of_reordered (settings : Settings) (generation : Generation)
    (first second : List Declaration) (reordered : Declaration.Reordered first second) :
    let one := Registry.ofDeclarations settings first
    let other := Registry.ofDeclarations settings second
    let model := build settings one generation
    let mixed := build settings other generation
    (∀ name, one.items.find? name = other.items.find? name ∧
      model.items.find? name = mixed.items.find? name ∧
      model.enumerations.find? name = mixed.enumerations.find? name ∧
      model.relations.find? name = mixed.relations.find? name ∧
      model.collections.find? name = mixed.collections.find? name ∧
      model.atomics.find? name = mixed.atomics.find? name ∧
      model.maps.find? name = mixed.maps.find? name ∧
      model.ownerKind? name = mixed.ownerKind? name) ∧
    one.conflicts.Perm other.conflicts ∧
    (∀ name, (model.referencesOf name).Perm (mixed.referencesOf name)) ∧
    (∀ question, (model.candidates question).Perm (mixed.candidates question) ∧
      (model.candidates question).filterMap Candidate.attribute? =
        (mixed.candidates question).filterMap Candidate.attribute?) ∧
    ∀ signal request, (Resolution.resolveSingle model signal request {}).1 =
      (Resolution.resolveSingle mixed signal request {}).1 := by
  intro one other model mixed
  have registries : one.Alike other := Registry.alike_of_reordered settings reordered
  have models : model.Alike mixed := alike_build settings registries generation
  refine ⟨fun name => ⟨?_, models.find?_items name, ?_, ?_, ?_, ?_, ?_, models.ownerKind?_eq name⟩,
    registries.conflicts_perm, models.references, ?_, models.resolveSingle_eq⟩
  · exact Table.find?_eq_of_slice_eq (registries.items name)
  · exact Table.find?_eq_of_slice_eq (registries.enumerations name)
  · exact Table.find?_eq_of_slice_eq (registries.relations name)
  · exact Table.find?_eq_of_slice_eq (registries.collections name)
  · exact Table.find?_eq_of_slice_eq (registries.atomics name)
  · exact Table.find?_eq_of_slice_eq (registries.maps name)
  · intro question
    obtain ⟨perm, attributes⟩ := models.rearranged_candidates question
    exact ⟨perm, attributes⟩

/-- Two relations give one item an end in the same role; declared the other way round, they are
listed the other way round, and are just as ambiguous. -/
theorem build_eq_of_reordered_relations :
    let item : Declaration := .item { name := "Order", attributes := [{ name := "entries" }] }
    let relation (name : String) : Declaration :=
      .relation { name, source := .role "order" "Order", target := .role "Entries" name }
    let first := [item, relation "Line", relation "Note"]
    let second := [item, relation "Note", relation "Line"]
    let model := build {} (Registry.ofDeclarations {} first) 1
    let mixed := build {} (Registry.ofDeclarations {} second) 1
    let question : Question := { ownerKind := .item, owner := "Order", feature := "entries" }
    Declaration.Reordered first second ∧
      model.candidates question ≠ mixed.candidates question ∧
      (model.candidates question).Perm (mixed.candidates question) := by
  intro item relation first second model mixed question
  have reordered : Declaration.Reordered first second :=
    Declaration.reordered_swap [item] [] (.inr (by decide))
  exact ⟨reordered, by decide,
    ((build_eq_of_reordered {} 1 first second reordered).2.2.2.1 question).1⟩

end Model

end ItemSchema
