import ReleasePicker.Options.Line

/-!
The content of a file around its options block. The block belongs to the first key line, and its
entries are the longest run of entry lines right below that line. The layout keeps everything, so
that printing it gives the content back. A block is what readers see of it: the values of the
entries, where the entry lines stand, and what a writer has to keep to when it replaces them.
-/
namespace ReleasePicker.Options

/-- The content of a file, cut at its first options block. -/
structure Layout where
  /-- The lines above the key line. -/
  before : List Text
  /-- The first key line. -/
  key : KeyLine
  /-- The entry lines right below the key line. -/
  entries : List EntryLine
  /-- The remaining lines, the first of which is not an entry line. -/
  after : List Text
  deriving DecidableEq, Repr

/-- Lines cut at the first key line: those above it, the key line, and those below it. -/
def seekKey : List Text → Option (List Text × KeyLine × List Text)
  | [] => none
  | line :: rest =>
    match KeyLine.ofLine? line with
    | some key => some ([], key, rest)
    | none => (seekKey rest).map fun (before, key, below) => (line :: before, key, below)

/-- The leading run of entry lines, and the lines below it. -/
def takeEntries : List Text → List EntryLine × List Text
  | [] => ([], [])
  | line :: rest =>
    match EntryLine.ofLine? line with
    | none => ([], line :: rest)
    | some entry => (entry :: (takeEntries rest).1, (takeEntries rest).2)

namespace Layout

/-- The layout of a file's content, if it has a key line. -/
def ofContent? (content : Text) : Option Layout := do
  let (before, key, below) ← seekKey (Text.lines content)
  return ⟨before, key, (takeEntries below).1, (takeEntries below).2⟩

/-- All that stands in front of the entry lines. -/
def head (layout : Layout) : Text :=
  layout.before.flatten ++ layout.key.render

/-- The entry lines as they stand in the file. -/
def body (layout : Layout) : Text :=
  layout.entries.flatMap EntryLine.render

/-- All that stands behind the entry lines. -/
def foot (layout : Layout) : Text :=
  layout.after.flatten

/-- The content with this layout. -/
def render (layout : Layout) : Text :=
  layout.head ++ layout.body ++ layout.foot

/-- The indentation of the block's entries: that of its first entry line, or two spaces more than
the key line has if there is none. -/
def entryIndent (layout : Layout) : Text :=
  match layout.entries with
  | [] => layout.key.indent ++ [' ', ' ']
  | first :: _ => first.indent

end Layout

/-! ## Blocks -/

/-- A stretch of a text, in bytes. -/
structure Span where
  /-- The offset of the first byte. -/
  start : Nat
  /-- The offset after the last byte. -/
  stop : Nat
  deriving DecidableEq, Repr

/-- An options block found in a text. -/
structure Block where
  /-- The indentation of its entry lines. -/
  entryIndent : Text
  /-- The terminator of its key line. -/
  newline : Newline
  /-- The values of its entries in order. -/
  entries : List Text
  /-- Where its entry lines stand, terminators included. -/
  span : Span
  /-- The number of its key line, counted from one. -/
  line : Nat
  deriving DecidableEq, Repr

/-- The block of a layout. -/
def Layout.block (layout : Layout) : Block where
  entryIndent := layout.entryIndent
  newline := layout.key.newline
  entries := layout.entries.map EntryLine.value
  span := ⟨Text.byteLength layout.head, Text.byteLength layout.head + Text.byteLength layout.body⟩
  line := layout.before.length + 1

/-- The first options block of a text, if it has a key line. A key line without entries has an
empty block. -/
def findBlock? (content : Text) : Option Block :=
  (Layout.ofContent? content).map Layout.block

end ReleasePicker.Options
