import ItemSchema.Model.Features
import ItemSchema.Resolution.Request

/-! The declarations that a feature name may refer to.

All candidates are listed, nearest level first and on each level the attribute
before the relation ends. Nothing is left out because something else shadows it,
and an unknown owner or feature has no candidates.
-/

set_option autoImplicit false

namespace ItemSchema

inductive Candidate where
  | ofAttribute (found : Attribute)
  | ofEnd (relationEnd : RelationEnd)
  | ofEnumeration (enumeration : Enumeration)
  deriving DecidableEq

namespace Candidate

def name? : Candidate → Option String
  | .ofAttribute found => some found.name
  | .ofEnd relationEnd => relationEnd.qualifier
  | .ofEnumeration enumeration => some enumeration.name

/-- The type of the feature: that of the attribute, that of the end, or the enumeration. -/
def typeName? : Candidate → Option String
  | .ofAttribute found => found.typeRef
  | .ofEnd relationEnd => relationEnd.typeName
  | .ofEnumeration enumeration => some enumeration.name

def origin? : Candidate → Option Origin
  | .ofAttribute found => found.origin
  | .ofEnd relationEnd => relationEnd.origin
  | .ofEnumeration enumeration => enumeration.origin?

end Candidate

namespace Model

/-- The candidates on one level: the attribute of exactly this name, then the ends in this role. -/
def candidatesAt (model : Model) (feature : String) (level : Item) : List Candidate :=
  (level.ownAttribute? feature).toList.map .ofAttribute ++
    ((model.referencesOf level.name).filter (·.playsRole feature)).map .ofEnd

def candidatesOnItem (model : Model) (item : Item) (feature : String) (inherited : Bool) :
    List Candidate :=
  (model.levels item inherited).flatMap (model.candidatesAt feature)

/-- The end of a relation that a feature selects, in any case of its letters. -/
def selectedSide? (feature : String) : Option Side :=
  if Text.equalsIgnoringCase feature sourceFeature then some .source
  else if Text.equalsIgnoringCase feature targetFeature then some .target
  else none

/-- An end of the relation if the feature selects one, else what the link item has. -/
def candidatesOnRelation (model : Model) (relation : Relation) (feature : String) : List Candidate :=
  match selectedSide? feature with
  | some side =>
      let relationEnd := relation.atSide side
      if relationEnd.typeName.isSome then [.ofEnd relationEnd] else []
  | none =>
      match model.items.find? model.linkName with
      | some link => model.candidatesOnItem link feature true
      | none => []

def candidates (model : Model) (question : Question) : List Candidate :=
  match question.ownerKind with
  | .item =>
      match model.items.find? question.owner with
      | some item => model.candidatesOnItem item question.feature question.inherited
      | none => []
  | .relation =>
      match model.relations.find? question.owner with
      | some relation => model.candidatesOnRelation relation question.feature
      | none => []
  | .enumeration =>
      if question.feature ∈ enumerationFeatures then
        (model.enumerations.find? question.owner).toList.map .ofEnumeration
      else []

end Model

end ItemSchema
