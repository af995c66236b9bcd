import ItemSchema.Proofs.Model.References
import ItemSchema.Proofs.Model.WellKept
import ItemSchema.Resolution.Candidate

/-! What a feature of a relation refers to.

Two names are reserved: in any case of their letters they select the ends of the
relation, and where an end has no type the link item does not stand in for it.
Every other feature is one of the link item, and so it is the same for all relations.
-/

set_option autoImplicit false

namespace ItemSchema

theorem Side.eq_of_fold_word_eq {first second : Side}
    (same : Text.fold first.word = Text.fold second.word) : first = second := by
  revert same
  cases first <;> cases second <;> decide

namespace Model

/-- Whether a feature is reserved for an end of a relation, in any case of its letters. -/
def Selects (feature : String) (side : Side) : Prop := Text.equalsIgnoringCase feature side.word

instance (feature : String) (side : Side) : Decidable (Selects feature side) :=
  inferInstanceAs (Decidable (_ = true))

theorem Selects.unique {feature : String} {first second : Side} (selectsFirst : Selects feature first)
    (selectsSecond : Selects feature second) : first = second := by
  have one := (Text.equalsIgnoringCase_iff _ _).mp selectsFirst
  have other := (Text.equalsIgnoringCase_iff _ _).mp selectsSecond
  exact Side.eq_of_fold_word_eq (one.symm.trans other)

theorem Selects.selectedSide?_eq {feature : String} {side : Side} (selects : Selects feature side) :
    selectedSide? feature = some side := by
  cases side with
  | source => exact if_pos selects
  | target =>
    have notSource : ¬ Selects feature .source := by
      intro source
      cases source.unique selects
    exact (if_neg notSource).trans (if_pos selects)

theorem selectedSide?_eq_none {feature : String} (free : ∀ side, ¬ Selects feature side) :
    selectedSide? feature = none :=
  (if_neg (free .source)).trans (if_neg (free .target))

/-- A selected end with a type is the one candidate, and without a type there is none. -/
theorem candidatesOnRelation_of_selects (model : Model) (relation : Relation) {feature : String}
    {side : Side} (selects : Selects feature side) :
    model.candidatesOnRelation relation feature =
      if (relation.atSide side).typeName.isSome then [.ofEnd (relation.atSide side)] else [] := by
  rw [candidatesOnRelation, selects.selectedSide?_eq]

/-- A feature that is not reserved is asked of the link item, with all it inherits. -/
theorem candidatesOnRelation_of_free (model : Model) (relation : Relation) {feature : String}
    (free : ∀ side, ¬ Selects feature side) :
    model.candidatesOnRelation relation feature =
      model.candidates { ownerKind := .item, owner := model.linkName, feature, inherited := true } := by
  rw [candidatesOnRelation, selectedSide?_eq_none free]
  rfl

/-- The ends of a relation are known by its name and by the side they are on. -/
theorem Reachable.label_atSide {model : Model} (reachable : model.Reachable) {owner : String}
    {relation : Relation} (found : model.relations.find? owner = some relation) (side : Side) :
    (relation.atSide side).label = (owner, side) := by
  have kept := reachable.wellKept.relations.find? found
  exact Prod.ext ((kept.ends side).relation.trans kept.named) (kept.ends side).side

theorem find?_link_build {settings : Settings} (synthesized : settings.synthesize) (registry : Registry)
    (generation : Generation) :
    ∃ link, (build settings registry generation).items.find? settings.linkName = some link := by
  rw [← Option.isSome_iff_exists]
  exact (contains_items_build settings registry generation _).mpr (.inr ⟨synthesized, .inr rfl⟩)

/-- The features of a relation do not depend on inheritance, and a name that is not a relation has none.
A reserved feature is the selected end if that has a type, and else nothing. Any other feature is what
the link item has, which is the same for all relations, and nothing where there is no such item. Where
missing items are synthesized there is always a link item. -/
theorem candidates_on_relation_owner (model : Model) (feature : String) :
    let ask (owner : String) (inherited : Bool) : List Candidate :=
      model.candidates { ownerKind := .relation, owner, feature, inherited }
    let ofLink : List Candidate :=
      model.candidates { ownerKind := .item, owner := model.linkName, feature, inherited := true }
    (∀ owner, ask owner false = ask owner true) ∧
    (∀ owner inherited, model.relations.find? owner = none → ask owner inherited = []) ∧
    (∀ owner inherited relation side, model.relations.find? owner = some relation →
      Selects feature side →
      ask owner inherited =
        if (relation.atSide side).typeName.isSome then [.ofEnd (relation.atSide side)] else []) ∧
    (model.Reachable → ∀ owner relation side, model.relations.find? owner = some relation →
      (relation.atSide side).label = (owner, side)) ∧
    ((∀ side, ¬ Selects feature side) →
      (∀ owner inherited relation, model.relations.find? owner = some relation →
        ask owner inherited = ofLink) ∧
      (∀ link, model.items.find? model.linkName = some link →
        ofLink = model.candidatesOnItem link feature true) ∧
      (model.items.find? model.linkName = none → ofLink = [])) ∧
    ∀ settings registry generation, model = build settings registry generation →
      settings.synthesize →
      model.linkName = settings.linkName ∧
        ∃ link, model.items.find? settings.linkName = some link := by
  intro ask ofLink
  have known : ∀ owner inherited relation, model.relations.find? owner = some relation →
      ask owner inherited = model.candidatesOnRelation relation feature := by
    intro owner inherited relation found
    simp only [ask, candidates, found]
  refine ⟨fun owner => rfl, ?_, ?_, ?_, ?_, ?_⟩
  · intro owner inherited unknown
    simp only [ask, candidates, unknown]
  · intro owner inherited relation side found selects
    rw [known owner inherited relation found, candidatesOnRelation_of_selects model relation selects]
  · exact fun reachable owner relation side found => reachable.label_atSide found side
  · intro free
    refine ⟨fun owner inherited relation found => ?_, fun link found => ?_, fun missing => ?_⟩
    · rw [known owner inherited relation found, candidatesOnRelation_of_free model relation free]
    · simp only [ofLink, candidates, found]
    · simp only [ofLink, candidates, missing]
  · rintro settings registry generation rfl synthesized
    exact ⟨rfl, find?_link_build synthesized registry generation⟩

/-- A relation without a source type and with a target that cannot be navigated and plays no role. The
link item has an attribute under a reserved name, and one under another. -/
theorem candidates_on_relation_owner_reserved :
    let declared : RelationDeclaration :=
      { name := "Lines", source := { typeName := some " " }
        target := { typeName := some "Entry", navigable := false } }
    let model := build {} (Registry.ofDeclarations {}
      [.item { name := "Link", attributes := [{ name := "SOURCE" }, { name := "quantity" }] },
        .relation declared]) 1
    let lines := Relation.ofDeclaration declared
    let ask (feature : String) : List Candidate :=
      model.candidates { ownerKind := .relation, owner := "Lines", feature }
    model.relations.find? "Lines" = some lines ∧ Selects "SOURCE" .source ∧ Selects "tArGet" .target ∧
      (∀ side, ¬ Selects "quantity" side) ∧
      ask "SOURCE" = [] ∧ ask "tArGet" = [.ofEnd lines.target] ∧
      ask "quantity" = model.candidates
        { ownerKind := .item, owner := "Link", feature := "quantity", inherited := true } ∧
      (ask "quantity").map (·.name?) = [some "quantity"] := by
  intro declared model lines ask
  have found : model.relations.find? "Lines" = some lines := by decide
  have source : Selects "SOURCE" .source := by decide
  have target : Selects "tArGet" .target := by decide
  have free : ∀ side, ¬ Selects "quantity" side := by
    intro side
    cases side <;> decide
  obtain ⟨-, -, untyped, -⟩ := candidates_on_relation_owner model "SOURCE"
  obtain ⟨-, -, typed, -⟩ := candidates_on_relation_owner model "tArGet"
  obtain ⟨-, -, -, -, ofLink, -⟩ := candidates_on_relation_owner model "quantity"
  exact ⟨found, source, target, free, untyped "Lines" false lines .source found source,
    typed "Lines" false lines .target found target, (ofLink free).1 "Lines" false lines found,
    by decide⟩

end Model

end ItemSchema
