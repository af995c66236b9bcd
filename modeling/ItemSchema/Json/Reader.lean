import ItemSchema.Json.Numeral
import ItemSchema.Json.Quoted

/-! Reading a JSON value from a stream of bytes, one byte at a time.

The reader is a machine with a stack: each byte takes it from one state to the
next or shows that the text is not JSON. So what it says about a text depends
only on the bytes it has seen, however they were cut into pieces.
-/

set_option autoImplicit false

namespace ItemSchema.Json

/-- An array or object around the value being read, with what came before it, latest first. -/
inductive Frame where
  | array (elements : List Json)
  | object (members : List (String × Json)) (name : String)

/-- What a string is read for. -/
inductive Role where
  | value
  -- the name of a member, after other members
  | name (members : List (String × Json))

inductive Reader where
  -- a value must follow
  | expectValue (around : List Frame)
  -- an array was opened
  | arrayStart (around : List Frame)
  -- an element was read
  | arrayRest (elements : List Json) (around : List Frame)
  -- an object was opened
  | objectStart (around : List Frame)
  -- a comma was read; the name of a member must follow
  | memberName (members : List (String × Json)) (around : List Frame)
  -- the name of a member was read; a colon must follow
  | colon (members : List (String × Json)) (name : String) (around : List Frame)
  -- a member was read
  | objectRest (members : List (String × Json)) (around : List Frame)
  -- the rest of a word must follow, starting with a byte
  | word (expected : UInt8) (rest : List UInt8) (value : Json) (around : List Frame)
  | number (numeral : Numeral) (around : List Frame)
  | text (role : Role) (quoted : Quoted) (around : List Frame)
  -- the whole value was read; only blanks may follow
  | done (value : Json)

namespace Reader

def start : Reader := .expectValue []

/-- Arrays and objects may be nested this deep. -/
def depthLimit : Nat := 127

def isSpace (byte : UInt8) : Bool := byte = 0x20 || byte = 0x09 || byte = 0x0A || byte = 0x0D

/-- Put a value that was read where it belongs. -/
def deliver (value : Json) : List Frame → Reader
  | [] => .done value
  | .array elements :: around => .arrayRest (value :: elements) around
  | .object members name :: around => .objectRest ((name, value) :: members) around

def beginValue (around : List Frame) (byte : UInt8) : Option Reader :=
  -- a quotation mark
  if byte = 0x22 then some (.text .value {} around)
  -- an opening square bracket or brace
  else if byte = 0x5B then
    if around.length < depthLimit then some (.arrayStart around) else none
  else if byte = 0x7B then
    if around.length < depthLimit then some (.objectStart around) else none
  -- a minus sign
  else if byte = 0x2D then some (.number .sign around)
  -- the words `null`, `true` and `false`
  else if byte = 0x6E then some (.word 0x75 [0x6C, 0x6C] .null around)
  else if byte = 0x74 then some (.word 0x72 [0x75, 0x65] (.bool true) around)
  else if byte = 0x66 then some (.word 0x61 [0x6C, 0x73, 0x65] (.bool false) around)
  else (digit? byte).map fun digit => .number (.start false digit) around

/-- A byte between the parts of a value. -/
def between (reader : Reader) (byte : UInt8) : Option Reader :=
  if isSpace byte then some reader
  else
    -- 0x5D and 0x7D close an array and an object, 0x2C is the comma and 0x3A the colon
    match reader with
    | .expectValue around => beginValue around byte
    | .arrayStart around =>
        if byte = 0x5D then some (deliver (.array []) around) else beginValue (.array [] :: around) byte
    | .arrayRest elements around =>
        if byte = 0x5D then some (deliver (.array elements.reverse) around)
        else if byte = 0x2C then some (.expectValue (.array elements :: around))
        else none
    | .objectStart around =>
        if byte = 0x7D then some (deliver (.object []) around)
        else if byte = 0x22 then some (.text (.name []) {} around)
        else none
    | .memberName members around =>
        if byte = 0x22 then some (.text (.name members) {} around) else none
    | .colon members name around =>
        if byte = 0x3A then some (.expectValue (.object members name :: around)) else none
    | .objectRest members around =>
        if byte = 0x7D then some (deliver (.object members.reverse) around)
        else if byte = 0x2C then some (.memberName members around)
        else none
    | _ => none

/-- The state after one more byte, unless no JSON text goes on like this. -/
def step (reader : Reader) (byte : UInt8) : Option Reader :=
  match reader with
  | .word expected rest value around =>
      if byte = expected then
        match rest with
        | [] => some (deliver value around)
        | next :: rest => some (.word next rest value around)
      else none
  | .number numeral around =>
      match numeral.step byte with
      | .continues next => some (.number next around)
      | .ends value => (deliver value around).between byte
      | .fails => none
  | .text role quoted around =>
      match quoted.step byte with
      | .continues next => some (.text role next around)
      | .ends content =>
          match role with
          | .value => some (deliver (.string content) around)
          | .name members => some (.colon members content around)
      | .fails => none
  | _ => reader.between byte

def feed (reader : Reader) : List UInt8 → Option Reader
  | [] => some reader
  | byte :: rest => (reader.step byte).bind (·.feed rest)

/-- The value, if the text may end here. -/
def finish? : Reader → Option Json
  | .done value => some value
  | .number numeral [] => numeral.value?
  | _ => none

theorem feed_append (reader : Reader) (first second : List UInt8) :
    reader.feed (first ++ second) = (reader.feed first).bind (·.feed second) := by
  induction first generalizing reader with
  | nil => rfl
  | cons byte rest ih =>
    rw [List.cons_append, feed, feed]
    cases reader.step byte with
    | none => rfl
    | some next => exact ih next

end Reader

inductive Ending where
  | clean
  -- reading failed, for a reason
  | broken (reason : String)
  deriving DecidableEq, Repr

/-- A stream hands out its bytes in pieces. -/
structure Stream where
  pieces : List (List UInt8)
  ending : Ending := .clean
  deriving DecidableEq, Repr

/-- Cut bytes into pieces of a size. -/
def cut (size : Nat) (bytes : List UInt8) : List (List UInt8) :=
  if size = 0 ∨ bytes = [] then []
  else bytes.take size :: cut size (bytes.drop size)
termination_by bytes.length
decreasing_by
  cases bytes with
  | nil => simp_all
  | cons byte rest => simp only [List.length_drop, List.length_cons]; omega

namespace Stream

def ofBytes (size : Nat) (bytes : List UInt8) : Stream := { pieces := cut size bytes }

/-- A stream that fails instead of handing out the byte at a position, or the end of the bytes. -/
def failingAt (size position : Nat) (reason : String) (bytes : List UInt8) : Stream :=
  if position ≤ bytes.length then
    { pieces := cut size (bytes.take position), ending := .broken reason }
  else ofBytes size bytes

def ofString (text : String) : Stream := { pieces := [utf8 text] }

end Stream

/-- Why no value could be read. -/
inductive ReadError where
  -- the bytes are not one JSON value
  | malformed
  -- the stream broke before the value was complete
  | interrupted (reason : String)
  deriving DecidableEq, Repr

def Reader.feedAll (reader : Reader) : List (List UInt8) → Option Reader
  | [] => some reader
  | piece :: rest => (reader.feed piece).bind (·.feedAll rest)

/-- Read one value from a stream, up to the end of it. -/
def read (stream : Stream) : Except ReadError Json :=
  match Reader.start.feedAll stream.pieces with
  | none => .error .malformed
  | some reader =>
      match stream.ending with
      | .broken reason => .error (.interrupted reason)
      | .clean =>
          match reader.finish? with
          | some value => .ok value
          | none => .error .malformed

theorem Reader.feedAll_eq_feed_flatten (reader : Reader) (pieces : List (List UInt8)) :
    reader.feedAll pieces = reader.feed pieces.flatten := by
  induction pieces generalizing reader with
  | nil => rfl
  | cons piece rest ih =>
    rw [feedAll, List.flatten_cons, feed_append]
    cases reader.feed piece with
    | none => rfl
    | some next => exact ih next

end ItemSchema.Json
