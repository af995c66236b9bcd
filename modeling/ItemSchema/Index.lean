import ItemSchema.Origin
import ItemSchema.Table
import ItemSchema.Text.Blank

/-! Database indexes of items.

The first declaration of an index stands until a later one replaces it
explicitly.
-/

set_option autoImplicit false

namespace ItemSchema

/-- A database index: declared on an item, and held under its trimmed name. -/
structure Index where
  name : String := ""
  keys : List String := []
  unique : Bool := false
  replace : Bool := false
  remove : Bool := false
  origin : Option Origin := none
  deriving DecidableEq

namespace Index

def withKey (index : Index) (key : String) : Index :=
  { index with keys := index.keys ++ [key] }

def asUnique (index : Index) : Index := { index with unique := true }

def replacing (index : Index) : Index := { index with replace := true }

/-- The index under its trimmed name, unless the name is blank. -/
def named? (index : Index) : Option Index :=
  (Text.trimmed? index.name).map fun name => { index with name }

/-- A known index is only overridden by one that replaces. -/
def mergeInto (indexes : Table String Index) (index : Index) : Table String Index :=
  if index.replace then indexes.insert index.name index else indexes.insertIfNew index.name index

end Index

end ItemSchema
