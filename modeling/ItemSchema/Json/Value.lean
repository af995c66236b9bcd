/-! JSON values.

An object keeps its members in written order, repeated names included; the last
member of a name is the one that counts. A number written as a plain integer is
told apart from every other number, which is kept as a decimal significand and
exponent.
-/

set_option autoImplicit false

namespace ItemSchema

inductive Json where
  | null
  | bool (value : Bool)
  | integer (value : Int)
  | decimal (negative : Bool) (significand : Nat) (exponent : Int)
  | string (value : String)
  | array (elements : List Json)
  | object (members : List (String × Json))
  deriving Repr

namespace Json

/-- The value of the last member of a name. -/
def lastMember? (name : String) : List (String × Json) → Option Json
  | [] => none
  | (other, value) :: rest =>
      match lastMember? name rest with
      | some later => some later
      | none => if other = name then some value else none

end Json

end ItemSchema
