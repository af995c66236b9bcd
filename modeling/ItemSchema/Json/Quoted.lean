import ItemSchema.Json.Value

/-! Strings in JSON text, as bytes.

Control characters must be escaped, surrogate escapes must come in pairs, and the
bytes between the quotes must be UTF-8 once the escapes are replaced.
-/

set_option autoImplicit false

namespace ItemSchema.Json

def utf8 (text : String) : List UInt8 := text.toList.flatMap String.utf8EncodeChar

/-- The text that some bytes encode, if they are UTF-8. -/
def ofUtf8? (bytes : List UInt8) : Option String := String.fromUTF8? bytes.toByteArray

/-- Whether a string is in the middle of an escape. -/
inductive Escape where
  | none
  | backslash
  -- hexadecimal digits, latest first, maybe after a leading surrogate
  | hex (digits : List UInt8) (leading : Option Nat)
  -- a leading surrogate; a backslash must follow
  | paired (leading : Nat)
  -- a leading surrogate and a backslash; the letter of a hexadecimal escape must follow
  | pairedBackslash (leading : Nat)
  deriving DecidableEq, Repr

def hexDigit? (byte : UInt8) : Option Nat :=
  if 0x30 ≤ byte ∧ byte ≤ 0x39 then some (byte.toNat - 0x30)
  else if 0x41 ≤ byte ∧ byte ≤ 0x46 then some (byte.toNat - 0x37)
  else if 0x61 ≤ byte ∧ byte ≤ 0x66 then some (byte.toNat - 0x57)
  else none

/-- The number that hexadecimal digits spell, given latest first. -/
def hexNumber? : List UInt8 → Option Nat
  | [] => some 0
  | byte :: rest =>
      match hexDigit? byte, hexNumber? rest with
      | some digit, some number => some (number * 16 + digit)
      | _, _ => none

def isLeadingSurrogate (unit : Nat) : Bool := 0xD800 ≤ unit && unit ≤ 0xDBFF

def isTrailingSurrogate (unit : Nat) : Bool := 0xDC00 ≤ unit && unit ≤ 0xDFFF

def pairedChar (leading trailing : Nat) : Char :=
  Char.ofNat (0x10000 + (leading - 0xD800) * 0x400 + (trailing - 0xDC00))

/-- The byte that a one-letter escape stands for. -/
def simpleEscape? (byte : UInt8) : Option UInt8 :=
  -- quotation mark, backslash and slash stand for themselves
  if byte = 0x22 ∨ byte = 0x5C ∨ byte = 0x2F then some byte
  -- the letters b, f, n, r and t
  else if byte = 0x62 then some 0x08
  else if byte = 0x66 then some 0x0C
  else if byte = 0x6E then some 0x0A
  else if byte = 0x72 then some 0x0D
  else if byte = 0x74 then some 0x09
  else none

/-- A string read so far: its bytes, latest first, and the escape it is in. -/
structure Quoted where
  bytes : List UInt8 := []
  escape : Escape := .none
  deriving DecidableEq, Repr

inductive Quoted.Step where
  | continues (next : Quoted)
  -- the closing quote
  | ends (text : String)
  | fails

namespace Quoted

def push (quoted : Quoted) (byte : UInt8) : Quoted := { bytes := byte :: quoted.bytes }

def pushChar (quoted : Quoted) (c : Char) : Quoted :=
  { bytes := (String.utf8EncodeChar c).reverse ++ quoted.bytes }

/-- The end of four hexadecimal digits. -/
def pushUnit (quoted : Quoted) (leading : Option Nat) (unit : Nat) : Step :=
  match leading with
  | some leading =>
      if isTrailingSurrogate unit then .continues (quoted.pushChar (pairedChar leading unit)) else .fails
  | none =>
      if isTrailingSurrogate unit then .fails
      else if isLeadingSurrogate unit then .continues { quoted with escape := .paired unit }
      else .continues (quoted.pushChar (Char.ofNat unit))

/-- One more hexadecimal digit. The digits are looked at when there are four. -/
def pushHex (quoted : Quoted) (digits : List UInt8) (leading : Option Nat) : Step :=
  if digits.length < 4 then .continues { quoted with escape := .hex digits leading }
  else
    match hexNumber? digits with
    | some unit => quoted.pushUnit leading unit
    | none => .fails

def step (quoted : Quoted) (byte : UInt8) : Step :=
  match quoted.escape with
  | .none =>
      if byte = 0x22 then
        match ofUtf8? quoted.bytes.reverse with
        | some text => .ends text
        | none => .fails
      else if byte = 0x5C then .continues { quoted with escape := .backslash }
      else if byte < 0x20 then .fails
      else .continues (quoted.push byte)
  | .backslash =>
      if byte = 0x75 then .continues { quoted with escape := .hex [] none }
      else
        match simpleEscape? byte with
        | some plain => .continues (quoted.push plain)
        | none => .fails
  | .hex digits leading => quoted.pushHex (byte :: digits) leading
  | .paired leading =>
      if byte = 0x5C then .continues { quoted with escape := .pairedBackslash leading } else .fails
  | .pairedBackslash leading =>
      if byte = 0x75 then .continues { quoted with escape := .hex [] (some leading) } else .fails

end Quoted

end ItemSchema.Json
