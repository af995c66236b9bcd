import ItemSchema.Model.Basic

/-! Requests to resolve a feature, and the occurrences they come from. -/

set_option autoImplicit false

namespace ItemSchema

/-- One identifier in a document. The scope is the numbered declaration that owns it. -/
structure Occurrence where
  document : FileId
  scope : UInt32
  span : Span
  deriving DecidableEq

/-- Occurrences of one scope of one document can affect each other. -/
def Occurrence.isSiblingOf (first second : Occurrence) : Bool :=
  first.document = second.document && first.scope = second.scope

/-- Everything about a request that its result depends on. -/
structure Question where
  ownerKind : OwnerKind
  owner : String
  feature : String
  -- whether the ancestors of an item are asked too
  inherited : Bool := false
  deriving DecidableEq, Repr

/-- A question, with the occurrence that asks it if the answer may be kept for it. -/
structure Request extends Question where
  occurrence : Option Occurrence := none
  deriving DecidableEq

/-- Ask for a feature of an owner of which only the name is known, and of its ancestors.
The model tells what kind of owner it is; an unknown owner cannot be asked. -/
def Request.detect? (model : Model) (owner feature : String) (occurrence : Occurrence) :
    Option Request :=
  (model.ownerKind? owner).map fun ownerKind =>
    { ownerKind, owner, feature, inherited := true, occurrence := some occurrence }

end ItemSchema
