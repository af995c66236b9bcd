import ItemSchema.Relation

/-! Named types that are not items: collections, atomic types and maps.

A declaration of such a type has the same parts as the record it leads to. The
last declaration of a collection wins, the first one of an atomic type does, and
the types of a map are filled in by whichever declaration names them first.
-/

set_option autoImplicit false

namespace ItemSchema

structure CollectionType where
  name : String := ""
  elementType : Option String := none
  kind : CollectionKind := .collection
  origin : Option Origin := none
  deriving DecidableEq

def CollectionType.withKind (declaration : CollectionType) (kind : CollectionKind) : CollectionType :=
  { declaration with kind }

/-- A primitive value type, known by the name of its class. -/
structure AtomicType where
  className : String := ""
  parent : Option String := none
  origin : Option Origin := none
  deriving DecidableEq

structure MapType where
  name : String := ""
  argumentType : Option String := none
  returnType : Option String := none
  origin : Option Origin := none
  deriving DecidableEq

/-- Whether two parts are both given and differ. -/
def disagree : Option String → Option String → Bool
  | some kept, some incoming => kept != incoming
  | _, _ => false

namespace MapType

def locatedAt (declaration : MapType) (origin : Origin) : MapType :=
  { declaration with origin := some origin }

/-- Every part that is missing is taken from the declaration. -/
def fill (map declaration : MapType) : MapType :=
  { map with
    argumentType := map.argumentType <|> declaration.argumentType
    returnType := map.returnType <|> declaration.returnType
    origin := map.origin <|> declaration.origin }

/-- Whether a declaration names a type other than the one already set. -/
def clashes (map declaration : MapType) : Bool :=
  disagree map.argumentType declaration.argumentType || disagree map.returnType declaration.returnType

end MapType

end ItemSchema
