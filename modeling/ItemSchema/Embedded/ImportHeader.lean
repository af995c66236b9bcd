import ItemSchema.Resolution.Request

/-! Parameters of bulk-import headers, such as `code` in `INSERT_UPDATE Product; code`. -/

set_option autoImplicit false

namespace ItemSchema.ImportHeader

/-- The feature a parameter names. Special columns, which start with an at sign, name none. -/
def feature? (parameter : String) : Option String :=
  match Text.trimChars parameter.toList with
  | [] => none
  | first :: rest => if first = '@' then none else some (String.ofList (first :: rest))

def request? (model : Model) (headerType parameter : String) (occurrence : Occurrence) :
    Option Request :=
  (feature? parameter).bind fun feature =>
    Request.detect? model (Text.trim headerType) feature occurrence

end ItemSchema.ImportHeader
