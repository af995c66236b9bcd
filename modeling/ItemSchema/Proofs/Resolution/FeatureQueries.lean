import ItemSchema.Proofs.Model.Shadowing
import ItemSchema.Resolution.Candidate

/-! The candidates for a feature of an item, compared with what its chain is asked directly.

The candidates come level by level, with attributes and relation ends mixed. Taken
apart they are the attributes of the name and the ends in the role, each as they
come along the chain, and the first attribute among them is the visible one.
-/

set_option autoImplicit false

namespace ItemSchema

namespace Candidate

def attribute? : Candidate → Option Attribute
  | .ofAttribute found => some found
  | .ofEnd _ | .ofEnumeration _ => none

def relationEnd? : Candidate → Option RelationEnd
  | .ofEnd relationEnd => some relationEnd
  | .ofAttribute _ | .ofEnumeration _ => none

end Candidate

namespace Model

theorem attributes_candidatesAt (model : Model) (feature : String) (level : Item) :
    (model.candidatesAt feature level).filterMap Candidate.attribute? =
      (level.ownAttribute? feature).toList := by
  simp [candidatesAt, Function.comp_def, Candidate.attribute?]

theorem ends_candidatesAt (model : Model) (feature : String) (level : Item) :
    (model.candidatesAt feature level).filterMap Candidate.relationEnd? =
      (model.referencesOf level.name).filter (·.playsRole feature) := by
  simp [candidatesAt, Function.comp_def, Candidate.relationEnd?]

theorem attributes_candidatesOnItem (model : Model) (item : Item) (feature : String) (inherited : Bool) :
    (model.candidatesOnItem item feature inherited).filterMap Candidate.attribute? =
      model.attributesNamed item feature inherited := by
  rw [candidatesOnItem, List.filterMap_flatMap]
  simp only [attributes_candidatesAt]
  exact (List.filterMap_eq_flatMap_toList ..).symm

theorem ends_candidatesOnItem (model : Model) (item : Item) (feature : String) (inherited : Bool) :
    (model.candidatesOnItem item feature inherited).filterMap Candidate.relationEnd? =
      model.endsInRole item feature inherited := by
  rw [candidatesOnItem, List.filterMap_flatMap]
  simp only [ends_candidatesAt]
  rfl

theorem endsInRole_eq_filter (model : Model) (item : Item) (role : String) (inherited : Bool) :
    model.endsInRole item role inherited =
      (model.gainedEnds item inherited).filter (·.playsRole role) := by
  rw [gainedEnds, List.filter_flatMap]
  rfl

/-- The own candidates come first. -/
theorem own_prefix_inherited (model : Model) (item : Item) (feature : String) :
    model.candidatesOnItem item feature false <+: model.candidatesOnItem item feature true := by
  obtain ⟨rest, chain⟩ := model.climb_eq_cons model.items.size [item.name] item
  refine ⟨rest.flatMap (model.candidatesAt feature), ?_⟩
  simp [candidatesOnItem, levels, ancestry, chain]

/-- The candidates for a feature of an item are the attributes of that name and the ends in that role
along its chain. Those of the item itself come first, and the visible attribute of the name, if there
is one, is the first attribute among them. -/
theorem candidates_eq_feature_queries {model : Model} (reachable : model.Reachable) {name : String}
    {item : Item} (found : model.items.find? name = some item) (feature : String) (inherited : Bool) :
    let ask (inherited : Bool) : List Candidate :=
      model.candidates { ownerKind := .item, owner := name, feature, inherited }
    (ask inherited).filterMap Candidate.attribute? = model.attributesNamed item feature inherited ∧
      (ask inherited).filterMap Candidate.relationEnd? = model.endsInRole item feature inherited ∧
      model.endsInRole item feature inherited =
        (model.gainedEnds item inherited).filter (·.playsRole feature) ∧
      ask false <+: ask true ∧
      (model.visibleAttributes item inherited).filter (·.name = feature) =
        ((ask inherited).filterMap Candidate.attribute?).head?.toList := by
  intro ask
  have asked : ∀ inherited, ask inherited = model.candidatesOnItem item feature inherited := by
    intro inherited
    simp only [ask, candidates, found]
  rw [asked, asked, asked, attributes_candidatesOnItem]
  refine ⟨rfl, ends_candidatesOnItem model item feature inherited,
    endsInRole_eq_filter model item feature inherited, own_prefix_inherited model item feature, ?_⟩
  apply filter_visibleAttributes
  intro level member
  exact reachable.keepsAttributeNames_levels found member

/-- Two items that extend each other, both with the attribute, and a relation between them whose ends
are in that role too. -/
theorem candidates_eq_feature_queries_in_cycle :
    let declared (name parent : String) : Declaration :=
      .item { name, parent := some parent, attributes := [{ name := "code", typeRef := some name }] }
    let model := build {} (Registry.ofDeclarations {}
      [declared "Order" "Base", declared "Base" "Order",
        .relation { name := "Codes", source := .role "Code" "Order", target := .role "CODE" "Base" }]) 1
    let code (item : String) : Attribute :=
      { name := "code", declaringItem := item, typeRef := some item, modifiers := {}, redeclare := false,
        customProperties := .empty, origin := none }
    let order : Item :=
      { name := "Order", parent := some "Base", attributes := ⟨[("code", code "Order")]⟩ }
    let ask (inherited : Bool) : List Candidate :=
      model.candidates { ownerKind := .item, owner := "Order", feature := "code", inherited }
    model.items.find? "Order" = some order ∧
      (ask true).filterMap Candidate.attribute? = model.attributesNamed order "code" true ∧
      (ask true).filterMap Candidate.relationEnd? = model.endsInRole order "code" true ∧
      ask false <+: ask true ∧
      (model.visibleAttributes order true).filter (·.name = "code") = [code "Order"] ∧
      (ask true).map (·.name?) = [some "code", some "CODE", some "code", some "Code"] := by
  intro declared model code order ask
  have reachable : model.Reachable := .build {} ((Registry.Reachable.empty {}).registerAll _) 1
  have found : model.items.find? "Order" = some order := by decide
  obtain ⟨attributes, ends, -, own, visible⟩ := candidates_eq_feature_queries reachable found "code" true
  exact ⟨found, attributes, ends, own, visible.trans (by decide), by decide⟩

end Model

end ItemSchema
