import ItemSchema.Model.Ancestry

/-! The features an item has of its own or from its ancestors.

Where a name is declared on several levels, the nearest declaration is the
visible one.
-/

set_option autoImplicit false

namespace ItemSchema.Model

/-- One table for several levels, in which the nearest entry of a key stands. -/
def overlay {α : Type} (tables : List (Table String α)) : Table String α :=
  tables.foldl (fun visible table => visible.insertAllIfNew table.entries) .empty

def visibleAttributes (model : Model) (item : Item) (inherited : Bool) : List Attribute :=
  (overlay ((model.levels item inherited).map (·.attributes))).values

def visibleProperties (model : Model) (item : Item) (inherited : Bool) : Table String String :=
  overlay ((model.levels item inherited).map (·.customProperties))

/-- The nearest index of every name; one that is marked for removal hides the name instead. -/
def visibleIndexes (model : Model) (item : Item) (inherited : Bool) : List Index :=
  (overlay ((model.levels item inherited).map (·.indexes))).values.filter (!·.remove)

/-- Every attribute of a name along the chain, nearest first. -/
def attributesNamed (model : Model) (item : Item) (name : String) (inherited : Bool) : List Attribute :=
  (model.levels item inherited).filterMap (·.ownAttribute? name)

def gainedEnds (model : Model) (item : Item) (inherited : Bool) : List RelationEnd :=
  (model.levels item inherited).flatMap fun level => model.referencesOf level.name

def endsInRole (model : Model) (item : Item) (role : String) (inherited : Bool) : List RelationEnd :=
  (model.levels item inherited).flatMap fun level =>
    (model.referencesOf level.name).filter (·.playsRole role)

end ItemSchema.Model
