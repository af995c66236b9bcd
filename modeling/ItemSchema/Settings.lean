/-! What a schema can be configured with, and the feature names with a fixed meaning. -/

set_option autoImplicit false

namespace ItemSchema

/-- Which parent an item keeps when two declarations of it name different ones. -/
inductive ParentPolicy where
  | firstWins
  | lastWins
  deriving DecidableEq, Repr

def ParentPolicy.word : ParentPolicy → String
  | .firstWins => "FirstWins"
  | .lastWins => "LastWins"

def ParentPolicy.ofWord? : String → Option ParentPolicy
  | "FirstWins" => some .firstWins
  | "LastWins" => some .lastWins
  | _ => none

structure Settings where
  -- implicit parent of every item that names none
  rootName : String := "GenericItem"
  -- item whose features every relation has
  linkName : String := "Link"
  parentPolicy : ParentPolicy := .firstWins
  -- whether a model adds the root and the link item when they are not declared
  synthesize : Bool := true
  deriving DecidableEq, Repr

def Settings.isRoot (settings : Settings) (name : String) : Bool := settings.rootName == name

/-- Selects the source end of a relation, in any case. -/
def sourceFeature : String := "source"

/-- Selects the target end of a relation, in any case. -/
def targetFeature : String := "target"

/-- The features of every enumeration, spelled exactly. -/
def enumerationFeatures : List String := ["code", "name"]

end ItemSchema
