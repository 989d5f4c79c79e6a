import ReleasePicker.Text.Utf8

/-!
Paths as the tool writes them: with slashes only, whatever the caller used, so that they compare and
print alike on every system.
-/
namespace ReleasePicker

/-- The text with every backslash turned into a slash. -/
def slashed (text : Text) : Text :=
  text.map fun c => if c = '\\' then '/' else c

theorem not_mem_slashed (text : Text) : '\\' ∉ slashed text := by
  simp only [slashed, List.mem_map, not_exists, not_and]
  intro c _
  split
  · decide
  · assumption

theorem slashed_of_not_mem {text : Text} (clean : '\\' ∉ text) : slashed text = text := by
  induction text with
  | nil => rfl
  | cons c rest ih =>
    simp only [List.mem_cons, not_or] at clean
    simp only [slashed, List.map_cons]
    rw [if_neg (Ne.symm clean.1)]
    exact congrArg (c :: ·) (ih clean.2)

/-- A path without backslashes. -/
structure SlashPath where
  /-- The path as text. -/
  text : Text
  /-- Backslashes have been turned into slashes. -/
  clean : '\\' ∉ text
  deriving DecidableEq, Repr

namespace SlashPath

/-- The path that a text names. -/
def ofText (text : Text) : SlashPath :=
  ⟨slashed text, not_mem_slashed text⟩

/-- The path that raw bytes name; what is not UTF-8 in them is shown by replacement characters. -/
def ofBytes (path : Bytes) : SlashPath :=
  ofText (Utf8.decodeLossy path)

/-- The bytes that the system is asked for. -/
def bytes (path : SlashPath) : Bytes :=
  Utf8.encode path.text

/-- The text without the steps into the current directory that it starts with. -/
def dropDotSlash : Text → Text
  | '.' :: '/' :: rest => dropDotSlash rest
  | text => text

/-- A path and a relative one behind it, with one slash between them unless the first already ends
in a slash. A path that names the current directory adds nothing. -/
def joinText (base relative : Text) : Text :=
  if base = [] ∨ base = ['.'] then relative
  else if base.getLast? = some '/' then base ++ relative
  else base ++ '/' :: relative

/-- The path of a segment below a path. -/
def join (path : SlashPath) (segment : Text) : SlashPath :=
  ofText (joinText path.text (dropDotSlash (slashed segment)))

/-- Whether raw bytes name a path from the root of the file system. -/
def isAbsolute (path : Bytes) : Bool :=
  path.head? == some 0x2F

/-- The path of a file named relative to a root; an absolute name stands for itself. -/
def resolve (root relative : Bytes) : SlashPath :=
  if isAbsolute relative then ofBytes relative
  else (ofBytes root).join (Utf8.decodeLossy relative)

end SlashPath

end ReleasePicker
