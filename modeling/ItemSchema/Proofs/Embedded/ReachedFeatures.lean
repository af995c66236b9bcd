import ItemSchema.Embedded.ImportHeader
import ItemSchema.Proofs.Embedded.ColumnGrammar
import ItemSchema.Proofs.Model.References
import ItemSchema.Proofs.Model.Shadowing
import ItemSchema.Proofs.Resolution.FeatureQueries
import ItemSchema.Proofs.Resolution.ItemOwner

/-! Every declared feature can be asked for in both embedded languages.

Names are trimmed when they are declared and again when they are asked for, so that
an attribute is found under what its declaration calls it. A name that is an item is
asked as an item, whatever else it is. On the item itself the attribute comes first,
and every end that the item gains is there in any case of its role.
-/

set_option autoImplicit false

namespace ItemSchema

/-- A request for a feature of an item or of its ancestors. -/
def Request.onItem (owner feature : String) (occurrence : Occurrence) : Request :=
  { ownerKind := .item, owner, feature, inherited := true, occurrence := some occurrence }

/-- A text with blanks before it, after it, or both. -/
def Text.Pads (padded text : String) : Prop :=
  ∃ before after, isBlank before ∧ isBlank after ∧ padded = before ++ text ++ after

theorem Text.Pads.trim_eq {padded text : String} (pads : Pads padded text) : trim padded = trim text := by
  obtain ⟨before, after, blankBefore, blankAfter, rfl⟩ := pads
  exact trim_padded blankBefore blankAfter text

namespace Model

variable {model : Model} {owner : String} {item : Item}

/-- An attribute of an item is found under its name, which has nothing to be trimmed. -/
theorem Reachable.ownAttribute?_name (reachable : model.Reachable)
    (found : model.items.find? owner = some item) {held : Attribute}
    (member : held ∈ item.attributes.values) :
    item.ownAttribute? held.name = some held ∧ Text.trimmed? held.name = some held.name := by
  have keeps := reachable.wellKept.attributes found
  obtain ⟨entry, inTable, rfl⟩ := List.mem_map.mp member
  have kept := keeps.allowed entry inTable
  rw [Item.ownAttribute?, kept.named, Text.trimmed?_eq_some_iff, kept.notBlank]
  exact ⟨Table.find?_of_mem_entries keeps.distinct inTable, Bool.false_ne_true, kept.trimmed⟩

/-- An item is asked as an item, also if a relation or an enumeration has its name. -/
theorem detect?_eq_onItem (found : model.items.find? owner = some item) (feature : String)
    (occurrence : Occurrence) :
    Request.detect? model owner feature occurrence = some (.onItem owner feature occurrence) := by
  simp [Request.detect?, ownerKind?, Table.contains, found, Request.onItem]

/-- What an item has of its own comes before what it inherits. -/
theorem candidatesAt_isPrefix_onItem (found : model.items.find? owner = some item) (feature : String)
    (occurrence : Occurrence) :
    model.candidatesAt feature item <+:
      model.candidates (Request.onItem owner feature occurrence).toQuestion := by
  simpa [candidates, Request.onItem, found, candidatesOnItem, levels] using
    model.own_prefix_inherited item feature

end Model

theorem Text.trimChars_toList {text : String} (bare : trim text = text) :
    trimChars text.toList = text.toList := by
  simpa [trim] using congrArg String.toList bare

/-- A parameter names what is left of it without the blanks around it. -/
theorem ImportHeader.feature?_of_trim_eq {parameter feature : String} (trimmed : Text.trim parameter = feature)
    (nonempty : feature ≠ "") (ordinary : feature.toList.head? ≠ some '@') :
    feature? parameter = some feature := by
  have chars : Text.trimChars parameter.toList = feature.toList := by
    simpa [Text.trim] using congrArg String.toList trimmed
  rw [feature?, chars]
  cases split : feature.toList with
  | nil => exact absurd (String.toList_eq_nil_iff.mp split) nonempty
  | cons first rest =>
    rw [split] at ordinary
    have ordinary : first ≠ '@' := fun same => ordinary (congrArg some same)
    simp [ordinary, ← split]

theorem QueryColumn.feature?_aliased {tableAlias feature : String} (noDot : '.' ∉ tableAlias.toList)
    (noColon : ':' ∉ feature.toList) (noBracket : '[' ∉ feature.toList) (bare : Text.trim feature = feature)
    (nonempty : feature ≠ "") :
    feature? ("\x7b" ++ tableAlias ++ "." ++ feature ++ "\x7d") = some feature := by
  have dot : afterFirst? '.' (tableAlias.toList ++ '.' :: feature.toList) = some feature.toList := by
    simp [afterFirst?_append, afterFirst?_eq_none noDot, afterFirst?]
  have chars : featureChars ("\x7b" ++ tableAlias ++ "." ++ feature ++ "\x7d").toList = feature.toList := by
    have written : ("\x7b" ++ tableAlias ++ "." ++ feature ++ "\x7d").toList =
        inBraces true true (tableAlias.toList ++ '.' :: feature.toList) := by
      simp [inBraces, openingBrace, closingBrace]
    rw [written, featureChars_inBraces, peel, dropAlias_of_dot dot,
      dropJoin_of_not_endsInJoin (not_endsInJoin_of_not_mem noColon), dropLanguage_of_not_mem noBracket,
      Text.trimChars_toList bare]
  rw [feature?, chars]
  split
  · next none => exact absurd (String.toList_eq_nil_iff.mp none) nonempty
  · rw [String.ofList_toList]

/-- No relation has an end with an empty role, and no other case of a role is empty either. -/
theorem Registry.Reachable.role_ne_empty {registry : Registry} (reachable : registry.Reachable)
    {relation : Relation} (held : relation ∈ registry.relations.values) {side : Side}
    {qualifier role : String} (qualified : (relation.atSide side).qualifier = some qualifier)
    (variant : Text.equalsIgnoringCase qualifier role) : role ≠ "" := by
  obtain ⟨entry, member, rfl⟩ := List.mem_map.mp held
  have kept := (reachable.wellKept.relations.allowed entry member).ends side
  have present : Text.isBlank qualifier = false := kept.qualifier qualifier qualified
  rintro rfl
  have folded : Text.fold qualifier = [] := (Text.equalsIgnoringCase_iff qualifier "").mp variant
  rw [(Text.fold_eq_nil_iff qualifier).mp folded] at present
  cases present

namespace Model

variable (settings : Settings) (declarations : List Declaration) (generation : Generation)
  {owner : String} {item : Item}

/-- An end that an item gains is a feature of it in any case of the role. -/
theorem ofEnd_mem_candidatesAt
    (found : (build settings (Registry.ofDeclarations settings declarations) generation).items.find? owner =
      some item) {relation : Relation}
    (held : relation ∈ (Registry.ofDeclarations settings declarations).relations.values) {side : Side}
    (gained : (relation.atSide side).isGainedBy (relation.atSide side.opposite) owner)
    {qualifier role : String} (qualified : (relation.atSide side).qualifier = some qualifier)
    (variant : Text.equalsIgnoringCase qualifier role) :
    .ofEnd (relation.atSide side) ∈
      (build settings (Registry.ofDeclarations settings declarations) generation).candidatesAt role item := by
  have named : item.name = owner := keyedByName_build settings declarations generation owner item found
  have listed : relation.atSide side ∈ (build settings (Registry.ofDeclarations settings declarations)
      generation).referencesOf owner := by
    rw [referencesOf_build_eq_flatMap]
    exact List.mem_flatMap.mpr
      ⟨relation, held, (relation.mem_endsGainedBy_iff owner _).mpr ⟨side, rfl, gained⟩⟩
  have plays : (relation.atSide side).playsRole role := by
    simpa [RelationEnd.playsRole, qualified] using variant
  refine List.mem_append_right _ (List.mem_map_of_mem ?_)
  rw [named]
  exact List.mem_filter.mpr ⟨listed, plays⟩

/-- Every attribute of an item is the first candidate of the requests that name the item and the
attribute in an import header, or in a column after an alias and a dot. Every end that the item gains
is a candidate of the requests that name it in any case of its role. Blanks around names do not
count. -/
theorem declared_features_are_reached
    (found : (build settings (Registry.ofDeclarations settings declarations) generation).items.find? owner =
      some item) (bare : Text.trim owner = owner) {table : String} (padded : Text.Pads table owner)
    (occurrence : Occurrence) :
    let model := build settings (Registry.ofDeclarations settings declarations) generation
    (∀ held ∈ item.attributes.values, held.name.toList.head? ≠ some '@' →
      let request := Request.onItem owner held.name occurrence
      (∀ parameter, Text.Pads parameter held.name →
        ImportHeader.request? model table parameter occurrence = some request) ∧
      (':' ∉ held.name.toList → '[' ∉ held.name.toList →
        ∀ tableAlias : String, '.' ∉ tableAlias.toList →
          QueryColumn.request? model table ("\x7b" ++ tableAlias ++ "." ++ held.name ++ "\x7d")
            occurrence = some request) ∧
      (model.candidates request.toQuestion).head? = some (.ofAttribute held)) ∧
    ∀ relation ∈ model.relations.values, ∀ side qualifier role,
      (relation.atSide side).isGainedBy (relation.atSide side.opposite) owner →
      (relation.atSide side).qualifier = some qualifier → Text.equalsIgnoringCase qualifier role →
      Text.trim role = role → role.toList.head? ≠ some '@' →
      let request := Request.onItem owner role occurrence
      ImportHeader.request? model table role occurrence = some request ∧
        .ofEnd (relation.atSide side) ∈ model.candidates request.toQuestion := by
  intro model
  have registered : (Registry.ofDeclarations settings declarations).Reachable :=
    (Registry.Reachable.empty settings).registerAll declarations
  have reachable : model.Reachable := .build settings registered generation
  have owned : Text.trim table = owner := padded.trim_eq.trans bare
  constructor
  · intro held member ordinary request
    obtain ⟨own, trimmed⟩ := reachable.ownAttribute?_name found member
    obtain ⟨present, trimmed⟩ := (Text.trimmed?_eq_some_iff _ _).mp trimmed
    have nonempty : held.name ≠ "" := fun empty => present (by rw [empty]; rfl)
    refine ⟨?_, ?_, ?_⟩
    · intro parameter pads
      rw [ImportHeader.request?, owned,
        ImportHeader.feature?_of_trim_eq (pads.trim_eq.trans trimmed) nonempty ordinary, Option.bind_some,
        detect?_eq_onItem found]
    · intro noColon noBracket tableAlias noDot
      rw [QueryColumn.request?, owned,
        QueryColumn.feature?_aliased noDot noColon noBracket trimmed nonempty, Option.bind_some,
        detect?_eq_onItem found]
    · obtain ⟨further, first⟩ := candidatesAt_isPrefix_onItem found held.name occurrence
      rw [← first, candidatesAt, own]
      rfl
  · intro relation isRelation side qualifier role gained qualified variant trimmed ordinary request
    have nonempty := registered.role_ne_empty isRelation qualified variant
    refine ⟨?_, ?_⟩
    · rw [ImportHeader.request?, owned, ImportHeader.feature?_of_trim_eq trimmed nonempty ordinary,
        Option.bind_some, detect?_eq_onItem found]
    · exact (candidatesAt_isPrefix_onItem found role occurrence).subset
        (ofEnd_mem_candidatesAt settings declarations generation found isRelation gained qualified variant)

/-- A name that is an item, a relation and an enumeration, with an attribute that is declared with blanks
around its name, and a role with a letter that has no ASCII case. -/
theorem declared_features_are_reached_under_shared_name :
    let declarations : List Declaration :=
      [.enumeration { name := "Node" }, .item { name := "Node", attributes := [{ name := " code\t" }] },
        .relation { name := "Node", source := .role "parent" "Node", target := .role "Äste" "Node" }]
    let model := build {} (Registry.ofDeclarations {} declarations) 1
    let code : Attribute :=
      { name := "code", declaringItem := "Node", typeRef := none, modifiers := {}, redeclare := false,
        customProperties := .empty, origin := none }
    let item : Item := { name := "Node", attributes := ⟨[("code", code)]⟩ }
    let tree := Relation.ofDeclaration
      { name := "Node", source := .role "parent" "Node", target := .role "Äste" "Node" }
    let occurrence : Occurrence := ⟨⟨0⟩, 0, ⟨0, 4, by decide⟩⟩
    (model.items.find? "Node" = some item ∧ Text.trim "Node" = "Node" ∧ Text.Pads " Node" "Node") ∧
    (code ∈ item.attributes.values ∧ "code".toList.head? ≠ some '@' ∧ Text.Pads "code " "code") ∧
    ImportHeader.request? model " Node" "code " occurrence = some (.onItem "Node" "code" occurrence) ∧
    QueryColumn.request? model " Node" "\x7b n.code\x7d" occurrence =
      some (.onItem "Node" "code" occurrence) ∧
    (model.candidates (Request.onItem "Node" "code" occurrence).toQuestion).head? =
      some (.ofAttribute code) ∧
    (tree ∈ model.relations.values ∧ tree.target.isGainedBy tree.source "Node" ∧
      Text.equalsIgnoringCase "Äste" "äSTE") ∧
    ImportHeader.request? model " Node" "äSTE" occurrence = some (.onItem "Node" "äSTE" occurrence) ∧
    .ofEnd tree.target ∈ model.candidates (Request.onItem "Node" "äSTE" occurrence).toQuestion := by
  intro declarations model code item tree occurrence
  have found : model.items.find? "Node" = some item := by decide
  have padded : Text.Pads " Node" "Node" := ⟨" ", "", by decide, by decide, by decide⟩
  have padsCode : Text.Pads "code " "code" := ⟨"", " ", by decide, by decide, by decide⟩
  have held : code ∈ item.attributes.values := by decide
  have isRelation : tree ∈ model.relations.values := by decide
  have gained : tree.target.isGainedBy tree.source "Node" := by decide
  have variant : Text.equalsIgnoringCase "Äste" "äSTE" := by decide
  obtain ⟨attributes, ends⟩ :=
    declared_features_are_reached {} declarations 1 found (by decide) padded occurrence
  obtain ⟨inHeader, inColumn, first⟩ := attributes code held (by decide)
  obtain ⟨asked, reached⟩ := ends tree isRelation .target "Äste" "äSTE" gained rfl variant (by decide)
    (by decide)
  exact ⟨⟨found, by decide, padded⟩, ⟨held, by decide, padsCode⟩, inHeader "code " padsCode,
    inColumn (by decide) (by decide) " n" (by decide), first, ⟨isRelation, gained, variant⟩, asked, reached⟩

end Model

end ItemSchema
