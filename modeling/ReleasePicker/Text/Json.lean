import ReleasePicker.Text.Basic

/-!
JSON as reports are written: an object with one field a line, indented by two spaces, and lists with
one item a line. Inside a string only quotes, backslashes and control characters are escaped.
-/
namespace ReleasePicker.Json

/-- What a field of a report can hold. -/
inductive Value
  | text (value : Text)
  | number (value : Nat)
  | flag (value : Bool)
  | texts (values : List Text)
  deriving DecidableEq, Repr

/-- A number below 256 in two digits of base sixteen, in lower case. -/
def twoHexDigits (number : Nat) : Text :=
  [Nat.digitChar (number / 16), Nat.digitChar (number % 16)]

/-- One character of a string. -/
def escapeChar (c : Char) : Text :=
  if c = '"' ∨ c = '\\' then ['\\', c]
  else if c = '\n' then ['\\', 'n']
  else if c = '\r' then ['\\', 'r']
  else if c = '\t' then ['\\', 't']
  else if c = '\x08' then ['\\', 'b']
  else if c = '\x0c' then ['\\', 'f']
  else if c.toNat < 0x20 then "\\u00".toList ++ twoHexDigits c.toNat
  else [c]

/-- A string with its quotes. -/
def renderText (value : Text) : Text :=
  ['"'] ++ value.flatMap escapeChar ++ ['"']

/-- Items on lines of their own between brackets, the brackets indented by `indent`. -/
def renderItems (opening closing : Char) (indent : Nat) : List Text → Text
  | [] => [opening, closing]
  | first :: rest =>
    let line (item : Text) := '\n' :: List.replicate (indent + 2) ' ' ++ item
    [opening] ++ line first ++ rest.flatMap (fun item => ',' :: line item) ++
      '\n' :: List.replicate indent ' ' ++ [closing]

/-- The value of a field, the field being indented by two spaces. -/
def Value.render : Value → Text
  | text value => renderText value
  | number value => Text.ofNat value
  | flag value => (if value then "true" else "false").toList
  | texts values => renderItems '[' ']' 2 (values.map renderText)

/-- An object with the given fields in their order. -/
def renderObject (fields : List (Text × Value)) : Text :=
  renderItems '\x7b' '\x7d' 0 <| fields.map fun (name, value) =>
    renderText name ++ ": ".toList ++ value.render

end ReleasePicker.Json
