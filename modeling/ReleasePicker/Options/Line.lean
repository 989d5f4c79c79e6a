import ReleasePicker.Options.Quotes

/-!
The lines of an options block. Its key line is the key alone on a line, with any indentation, and
with nothing but spaces and tabs after it; a key that the end of the text cuts off is not a key
line, for no entry could follow it. Its entry lines are an indentation, a dash, and one
single-quoted value, again with nothing but spaces and tabs after it; the last line of a file may be
an entry line without a terminator.
-/
namespace ReleasePicker.Options

open Text (isIndent)

/-! ## Terminators -/

/-- How a line ends. -/
inductive Newline
  /-- A line feed alone. -/
  | lf
  /-- A carriage return and a line feed. -/
  | crlf
  deriving DecidableEq, Repr

namespace Newline

/-- The characters of the terminator. -/
def text : Newline → Text
  | lf => ['\n']
  | crlf => ['\r', '\n']

/-- The terminator that the text is, if it is one. -/
def ofText? : Text → Option Newline
  | ['\n'] => some lf
  | ['\r', '\n'] => some crlf
  | _ => none

theorem ofText?_text (newline : Newline) : ofText? newline.text = some newline := by
  cases newline <;> rfl

theorem ofText?_eq_some {text : Text} {newline : Newline} (known : ofText? text = some newline) :
    text = newline.text := by
  unfold ofText? at known
  split at known <;> cases known <;> rfl

end Newline

/-! ## Key lines -/

/-- The key as it is written, colon included. -/
def keyword : Text :=
  ['o', 'p', 't', 'i', 'o', 'n', 's', ':']

/-- A key line taken apart. -/
structure KeyLine where
  /-- The spaces and tabs before the key. -/
  indent : Text
  /-- The spaces and tabs after the key. -/
  tail : Text
  /-- How the line ends. -/
  newline : Newline
  deriving DecidableEq, Repr

namespace KeyLine

/-- The line as it stands in the file. -/
def render (line : KeyLine) : Text :=
  line.indent ++ keyword ++ line.tail ++ line.newline.text

/-- The text after the key, if the text starts with the key. -/
def afterKeyword? (text : Text) : Option Text :=
  if keyword.isPrefixOf text then some (text.drop keyword.length) else none

/-- The key line that a line of a file is, if it is one. -/
def ofLine? (line : Text) : Option KeyLine := do
  let rest ← afterKeyword? (line.dropWhile isIndent)
  let newline ← Newline.ofText? (rest.dropWhile isIndent)
  return ⟨line.takeWhile isIndent, rest.takeWhile isIndent, newline⟩

end KeyLine

/-! ## Entry lines -/

/-- An entry line taken apart. -/
structure EntryLine where
  /-- The spaces and tabs before the dash. -/
  indent : Text
  /-- The value between the quotes, each pair of quotes halved. -/
  value : Text
  /-- The spaces and tabs after the closing quote. -/
  tail : Text
  /-- How the line ends, `none` at the end of the text. -/
  newline : Option Newline
  deriving DecidableEq, Repr

/-- An entry as the library writes it, without a terminator. -/
def formatEntry (indent value : Text) : Text :=
  indent ++ ['-', ' ', '\''] ++ double value ++ ['\'']

namespace EntryLine

/-- The line as it stands in the file. -/
def render (line : EntryLine) : Text :=
  formatEntry line.indent line.value ++ line.tail ++ (line.newline.map Newline.text).getD []

/-- How an entry line ends, given all that stands after its last blank. -/
def ending? : Text → Option (Option Newline)
  | [] => some none
  | text => (Newline.ofText? text).map some

/-- The entry line that a line of a file is, if it is one. It must be indented. -/
def ofLine? (line : Text) : Option EntryLine :=
  match line.takeWhile isIndent, line.dropWhile isIndent with
  | blank :: blanks, '-' :: ' ' :: '\'' :: rest => do
    let (value, after) ← closeQuote rest
    let newline ← ending? (after.dropWhile isIndent)
    return ⟨blank :: blanks, halve value, after.takeWhile isIndent, newline⟩
  | _, _ => none

end EntryLine

end ReleasePicker.Options
