import ItemSchema.Proofs.Model.References
import ItemSchema.Proofs.Resolution.FeatureQueries

/-! Names that differ in case only, and the roles of relation ends.

Two names are equal when case is ignored exactly if their lowercase mappings are, also
where one of them is ASCII and the other is not, and where they are not of the same
length. So this is an equivalence, and one role is as good as another for finding the
ends that an item gains.
-/

set_option autoImplicit false

namespace ItemSchema

namespace Text

theorem fold_append (first second : String) : fold (first ++ second) = fold first ++ fold second := by
  simp [fold]

theorem equivalence_equalsIgnoringCase : Equivalence fun a b => equalsIgnoringCase a b = true := by
  simp only [equalsIgnoringCase_iff]
  exact ⟨fun _ => rfl, Eq.symm, Eq.trans⟩

theorem equalsIgnoringCase_append {first second other another : String}
    (same : equalsIgnoringCase first other) (alike : equalsIgnoringCase second another) :
    equalsIgnoringCase (first ++ second) (other ++ another) := by
  rw [equalsIgnoringCase_iff] at same alike ⊢
  rw [fold_append, fold_append, same, alike]

/-- Nothing tells two names apart that are equal when case is ignored. -/
theorem equalsIgnoringCase_congr {role other : String} (same : equalsIgnoringCase role other)
    (qualifier : String) : equalsIgnoringCase qualifier role = equalsIgnoringCase qualifier other := by
  rw [Bool.eq_iff_iff, equalsIgnoringCase_iff, equalsIgnoringCase_iff,
    (equalsIgnoringCase_iff role other).mp same]

end Text

theorem RelationEnd.playsRole_congr {role other : String} (same : Text.equalsIgnoringCase role other)
    (relationEnd : RelationEnd) : relationEnd.playsRole role = relationEnd.playsRole other := by
  simp only [playsRole, Text.equalsIgnoringCase_congr same]

namespace Model

theorem endsInRole_congr {role other : String} (same : Text.equalsIgnoringCase role other) (model : Model)
    (item : Item) (inherited : Bool) :
    model.endsInRole item role inherited = model.endsInRole item other inherited := by
  simp only [endsInRole, RelationEnd.playsRole_congr same]

theorem ends_candidates (model : Model) (owner role : String) (inherited : Bool) :
    (model.candidates { ownerKind := .item, owner, feature := role, inherited }).filterMap
        Candidate.relationEnd? =
      match model.items.find? owner with
      | some item => model.endsInRole item role inherited
      | none => [] := by
  simp only [candidates]
  cases model.items.find? owner with
  | none => rfl
  | some item => exact ends_candidatesOnItem model item role inherited

/-- Equal when case is ignored means equal lowercase mappings. It is an equivalence that goes along with
putting names together, and roles that are equal in this way have the same ends and the same candidates
among them, on every item of every model. -/
theorem roles_equal_ignoring_case :
    (∀ a b, Text.equalsIgnoringCase a b ↔ Text.fold a = Text.fold b) ∧
    (Equivalence fun a b => Text.equalsIgnoringCase a b = true) ∧
    (∀ a b c d, Text.equalsIgnoringCase a b → Text.equalsIgnoringCase c d →
      Text.equalsIgnoringCase (a ++ c) (b ++ d)) ∧
    ∀ role other, Text.equalsIgnoringCase role other → ∀ (model : Model) (inherited : Bool),
      (∀ item, model.endsInRole item role inherited = model.endsInRole item other inherited) ∧
      ∀ owner,
        (model.candidates { ownerKind := .item, owner, feature := role, inherited }).filterMap
            Candidate.relationEnd? =
          (model.candidates { ownerKind := .item, owner, feature := other, inherited }).filterMap
            Candidate.relationEnd? := by
  refine ⟨Text.equalsIgnoringCase_iff, Text.equivalence_equalsIgnoringCase,
    fun a b c d => Text.equalsIgnoringCase_append, ?_⟩
  intro role other same model inherited
  refine ⟨fun item => endsInRole_congr same model item inherited, ?_⟩
  intro owner
  simp only [ends_candidates, endsInRole_congr same]

/-- The sign for kelvin has the letter k as its lowercase, and a dotted capital I has two characters. -/
theorem roles_equal_ignoring_case_beyond_ascii :
    let model := build {} (Registry.ofDeclarations {}
      [.item { name := "Sensor" },
        .relation { name := "Readings", source := .role "kelvin" "Reading", target := .role "at" "Sensor" }]) 1
    let ends (role : String) : List RelationEnd :=
      (model.candidates { ownerKind := .item, owner := "Sensor", feature := role }).filterMap
        Candidate.relationEnd?
    (Text.equalsIgnoringCase "KELVIN" "\u212Aelvin" ∧ Text.equalsIgnoringCase "\u0130" "i\u0307") ∧
      Text.equalsIgnoringCase ("KELVIN" ++ "\u0130") ("\u212Aelvin" ++ "i\u0307") ∧
      ends "KELVIN" = ends "\u212Aelvin" ∧ (ends "KELVIN").map (·.label) = [("Readings", .source)] := by
  intro model ends
  have kelvin : Text.equalsIgnoringCase "KELVIN" "\u212Aelvin" := by decide
  have dotted : Text.equalsIgnoringCase "\u0130" "i\u0307" := by decide
  obtain ⟨-, -, joined, roles⟩ := roles_equal_ignoring_case
  exact ⟨⟨kelvin, dotted⟩, joined _ _ _ _ kelvin dotted,
    (roles _ _ kelvin model false).2 "Sensor", by decide⟩

end Model

end ItemSchema
