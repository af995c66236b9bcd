import ItemSchema.Exchange.Decode
import ItemSchema.Exchange.Encode
import ItemSchema.Json.Printer
import ItemSchema.Json.Reader

/-! Sets of declarations as JSON text: loaded from a string or a stream, and written.

A set of declarations is an array. The text must be JSON before anything else is
asked of it, and an array before its elements are looked at.
-/

set_option autoImplicit false

namespace ItemSchema.Exchange

inductive LoadError where
  -- the text is not JSON, or an element is not a declaration
  | malformed
  -- the text is JSON, but not an array
  | notAnArray
  | interrupted (reason : String)
  deriving DecidableEq, Repr

/-- What is to be told of an error; how malformed text is described is left open. -/
def LoadError.message? : LoadError → Option String
  | .malformed => none
  | .notAnArray => some "Invalid declaration set: expected a JSON array of declarations"
  | .interrupted reason => some ("IO error: " ++ reason)

def ofJson : Json → Except LoadError (List Declaration)
  | .array elements =>
      match elements.mapM Declaration.ofJson? with
      | some declarations => .ok declarations
      | none => .error .malformed
  | _ => .error .notAnArray

def read (stream : Json.Stream) : Except LoadError (List Declaration) :=
  match Json.read stream with
  | .ok json => ofJson json
  | .error .malformed => .error .malformed
  | .error (.interrupted reason) => .error (.interrupted reason)

def load (text : String) : Except LoadError (List Declaration) := read (.ofString text)

def write (declarations : List Declaration) : String :=
  (Json.array (declarations.map Declaration.toJson)).pretty

end ItemSchema.Exchange
