import ItemSchema.Origin
import ItemSchema.Table
import ItemSchema.Text.Blank

/-! Enumerations: their declarations and the record of the values declared so far. -/

set_option autoImplicit false

namespace ItemSchema

structure ValueDeclaration where
  code : String := ""
  origin : Option Origin := none
  deriving DecidableEq

/-- The value as a table entry under its code, unless the code is blank. -/
def ValueDeclaration.entry? (value : ValueDeclaration) : Option (String × Option Origin) :=
  (Text.nonBlank? value.code).map fun code => (code, value.origin)

structure EnumerationDeclaration where
  name : String := ""
  values : List ValueDeclaration := []
  dynamic : Bool := false
  origin : Option Origin := none
  deriving DecidableEq

namespace EnumerationDeclaration

def withValue (declaration : EnumerationDeclaration) (code : String) : EnumerationDeclaration :=
  { declaration with values := declaration.values ++ [{ code }] }

def asDynamic (declaration : EnumerationDeclaration) : EnumerationDeclaration :=
  { declaration with dynamic := true }

def locatedAt (declaration : EnumerationDeclaration) (origin : Origin) : EnumerationDeclaration :=
  { declaration with origin := some origin }

end EnumerationDeclaration

/-- An enumeration merged from all of its declarations. -/
structure Enumeration where
  name : String
  -- the codes in first-seen order, each with the origin it was first declared with
  values : Table String (Option Origin) := .empty
  dynamic : Bool := false
  declarations : List Origin := []
  deriving DecidableEq

namespace Enumeration

/-- The values of both sides; a value declared twice keeps its first origin. -/
def merge (enumeration : Enumeration) (declaration : EnumerationDeclaration) : Enumeration :=
  { enumeration with
    values := enumeration.values.insertAllIfNew (declaration.values.filterMap ValueDeclaration.entry?)
    dynamic := enumeration.dynamic || declaration.dynamic
    declarations := enumeration.declarations ++ declaration.origin.toList }

def hasValue (enumeration : Enumeration) (code : String) : Bool := enumeration.values.contains code

def origin? (enumeration : Enumeration) : Option Origin := enumeration.declarations.head?

end Enumeration

end ItemSchema
