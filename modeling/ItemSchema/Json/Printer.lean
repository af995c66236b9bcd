import ItemSchema.Json.Value

/-! Writing JSON values as text, on one line or laid out over many.

Only quotes, backslashes and control characters are escaped; all other
characters stand for themselves.
-/

set_option autoImplicit false

namespace ItemSchema.Json

def hexDigit (n : Nat) : Char := if n < 10 then Char.ofNat (0x30 + n) else Char.ofNat (0x57 + n)

/-- A character as it stands between quotes. -/
def escapeChar (c : Char) : List Char :=
  if c = '"' then ['\\', '"']
  else if c = '\\' then ['\\', '\\']
  else if c.toNat = 0x08 then ['\\', 'b']
  else if c.toNat = 0x09 then ['\\', 't']
  else if c.toNat = 0x0A then ['\\', 'n']
  else if c.toNat = 0x0C then ['\\', 'f']
  else if c.toNat = 0x0D then ['\\', 'r']
  else if c.toNat < 0x20 then
    ['\\', 'u', '0', '0', hexDigit (c.toNat / 16), hexDigit (c.toNat % 16)]
  else [c]

def quote (text : String) : String :=
  String.ofList ('"' :: text.toList.flatMap escapeChar ++ ['"'])

def naturalText (n : Nat) : String := String.ofList (Nat.toDigits 10 n)

def integerText : Int → String
  | .ofNat n => naturalText n
  | .negSucc n => "-" ++ naturalText (n + 1)

def decimalText (negative : Bool) (significand : Nat) (exponent : Int) : String :=
  (if negative then "-" else "") ++ naturalText significand ++ "e" ++ integerText exponent

def newline (level : Nat) : String := String.ofList ('\n' :: List.replicate (2 * level) ' ')

def separated (separator : String) : List String → String
  | [] => ""
  | [part] => part
  | part :: rest => part ++ separator ++ separated separator rest

/-- Parts of a container between its brackets, each on its own line. -/
def bracket (opening closing : String) (level : Nat) : List String → String
  | [] => opening ++ closing
  | parts =>
      opening ++ newline (level + 1) ++ separated ("," ++ newline (level + 1)) parts ++
        newline level ++ closing

mutual

/-- Lay a value out with two blanks for each level of nesting. -/
def layOut (level : Nat) : Json → String
  | .null => "null"
  | .bool value => if value then "true" else "false"
  | .integer value => integerText value
  | .decimal negative significand exponent => decimalText negative significand exponent
  | .string value => quote value
  | .array elements => bracket "[" "]" level (layOutElements (level + 1) elements)
  | .object members => bracket "\x7b" "\x7d" level (layOutMembers (level + 1) members)

def layOutElements (level : Nat) : List Json → List String
  | [] => []
  | element :: rest => layOut level element :: layOutElements level rest

def layOutMembers (level : Nat) : List (String × Json) → List String
  | [] => []
  | (name, value) :: rest => (quote name ++ ": " ++ layOut level value) :: layOutMembers level rest

end

/-- A value over several lines, without a line break at the end. -/
def pretty (value : Json) : String := layOut 0 value

mutual

/-- A value on one line, without blanks. -/
def compact : Json → String
  | .null => "null"
  | .bool value => if value then "true" else "false"
  | .integer value => integerText value
  | .decimal negative significand exponent => decimalText negative significand exponent
  | .string value => quote value
  | .array elements => "[" ++ separated "," (compactElements elements) ++ "]"
  | .object members => "\x7b" ++ separated "," (compactMembers members) ++ "\x7d"

def compactElements : List Json → List String
  | [] => []
  | element :: rest => compact element :: compactElements rest

def compactMembers : List (String × Json) → List String
  | [] => []
  | (name, value) :: rest => (quote name ++ ":" ++ compact value) :: compactMembers rest

end

end ItemSchema.Json
