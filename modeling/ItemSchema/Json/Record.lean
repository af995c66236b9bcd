import ItemSchema.Json.Value

/-! Records in JSON.

A record may be written as an object, with its fields under their names in any
order, or as an array of its fields in declared order. Either way fields may be
left out, an array only at its end, and an object may have members that are no
fields.
-/

set_option autoImplicit false

namespace ItemSchema.Json

/-- What is written for each field of a record; nothing is for a field that is left out. -/
def slots? (fields : List String) : Json → Option (List (Option Json))
  | .object members => some (fields.map fun field => lastMember? field members)
  | .array elements =>
      if elements.length ≤ fields.length then
        some (elements.map some ++ List.replicate (fields.length - elements.length) none)
      else none
  | _ => none

def fieldOr {α : Type} (default : α) (decode : Json → Option α) : Option Json → Option α
  | none => some default
  | some value => decode value

def optional? {α : Type} (decode : Json → Option α) : Json → Option (Option α)
  | .null => some none
  | value => (decode value).map some

def string? : Json → Option String
  | .string value => some value
  | _ => none

def bool? : Json → Option Bool
  | .bool value => some value
  | _ => none

def word32? : Json → Option UInt32
  | .integer (.ofNat n) => if n < Nat.pow 2 32 then some (UInt32.ofNat n) else none
  | _ => none

def list? {α : Type} (decode : Json → Option α) : Json → Option (List α)
  | .array elements => elements.mapM decode
  | _ => none

/-- The only name in an object, with the value it has there. -/
def soleMember? : Json → Option (String × Json)
  | .object ((name, value) :: rest) =>
      if rest.all (·.1 == name) then
        (lastMember? name ((name, value) :: rest)).map fun last => (name, last)
      else none
  | _ => none

/-- A word on its own, or as the only name in an object, with null for it. -/
def word? : Json → Option String
  | .string word => some word
  | value =>
      match soleMember? value with
      | some (word, .null) => some word
      | _ => none

/-- A word as a part of a declaration, where an object may have the empty object for it as well. -/
def partWord? (value : Json) : Option String :=
  match soleMember? value with
  | some (word, .object []) => some word
  | _ => word? value

end ItemSchema.Json
