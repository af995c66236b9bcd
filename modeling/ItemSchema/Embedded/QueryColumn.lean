import ItemSchema.Resolution.Request

/-! Column references of the query language.

A column may be written in braces, after an alias with a dot or a colon, before a
language in square brackets, and before a colon and a join modifier. What
remains is the name of the feature. A name, a colon and nothing but a join
modifier read as a column with its modifier, never as an alias with its column.
-/

set_option autoImplicit false

namespace ItemSchema.QueryColumn

def openingBrace : Char := '\x7b'

def closingBrace : Char := '\x7d'

/-- The letters that stand for a join modifier. -/
def isJoinModifier (c : Char) : Bool := c = 'o' || c = 'c' || c = 'l'

def afterFirst? (mark : Char) : List Char → Option (List Char)
  | [] => none
  | c :: rest => if c = mark then some rest else afterFirst? mark rest

/-- Drop one opening brace at the start and one closing brace at the end. -/
def dropBraces (text : List Char) : List Char :=
  let text := if text.head? = some openingBrace then text.tail else text
  if text.getLast? = some closingBrace then text.dropLast else text

/-- Drop an alias. A dot always ends one; without a dot, a colon does unless all that
follows is a join modifier. -/
def dropAlias (text : List Char) : List Char :=
  match afterFirst? '.' text with
  | some rest => rest
  | none =>
      match afterFirst? ':' text with
      | some [c] => if isJoinModifier c then text else [c]
      | some rest => rest
      | none => text

def dropJoin (text : List Char) : List Char :=
  match text.reverse with
  | modifier :: ':' :: rest => if isJoinModifier modifier then rest.reverse else text
  | _ => text

/-- Drop a language qualifier, which starts at the first square bracket. -/
def dropLanguage (text : List Char) : List Char := text.takeWhile (· ≠ '[')

/-- The characters of the feature that a column names; there may be none left. -/
def featureChars (column : List Char) : List Char :=
  Text.trimChars (dropLanguage (dropJoin (dropAlias (dropBraces (Text.trimChars column)))))

def feature? (column : String) : Option String :=
  match featureChars column.toList with
  | [] => none
  | chars => some (String.ofList chars)

def request? (model : Model) (table column : String) (occurrence : Occurrence) : Option Request :=
  (feature? column).bind fun feature =>
    Request.detect? model (Text.trim table) feature occurrence

end ItemSchema.QueryColumn
