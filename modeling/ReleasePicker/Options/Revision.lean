import ReleasePicker.Diff.Changes
import ReleasePicker.Options.Layout
import ReleasePicker.Text.Quoted

/-!
Replacing the entries of the first options block. Everything outside the entry lines stays as it
is, and the new lines keep to the indentation and the terminator of the block. In a session of
revisions each one starts from the content that the one before it left, and a revision that fails
leaves the content as it was.
-/
namespace ReleasePicker.Options

open Text (breaksLine)

/-- Why entries cannot be written. -/
inductive RevisionError
  /-- The content has no key line. -/
  | blockNotFound
  /-- The value cannot be an entry, for the reason given. -/
  | invalidEntry (value reason : Text)
  deriving DecidableEq, Repr

/-- The error as a user reads it. -/
def RevisionError.message : RevisionError → Text
  | .blockNotFound => "No `options:` block found".toList
  | .invalidEntry value reason =>
    "Invalid option entry ".toList ++ Text.quoted value ++ ": ".toList ++ reason

/-- The reason to refuse a value that holds a line break. -/
def multilineReason : Text :=
  "entries must fit on a single line".toList

/-- The entry lines for the values, each followed by the terminator. The first value with a line
break is refused. -/
def renderEntries (indent newline : Text) : List Text → Except RevisionError Text
  | [] => .ok []
  | value :: rest =>
    if value.any breaksLine then .error (.invalidEntry value multilineReason)
    else (renderEntries indent newline rest).map fun lines =>
      formatEntry indent value ++ newline ++ lines

/-- A content with its entries replaced. -/
structure Revision where
  /-- The whole content after the revision. -/
  content : Text
  /-- The block as it was before. -/
  previous : Block
  /-- How many entry lines were written. -/
  entriesWritten : Nat
  /-- Whether the content differs from what it was. -/
  changed : Bool
  deriving DecidableEq, Repr

/-- Replace the entries of the first options block by the given values. A missing block is
reported before a value that cannot be written. -/
def replaceEntries (content : Text) (entries : List Text) : Except RevisionError Revision :=
  match Layout.ofContent? content with
  | none => .error .blockNotFound
  | some layout =>
    (renderEntries layout.entryIndent layout.key.newline.text entries).map fun body =>
      let revised := layout.head ++ body ++ layout.foot
      { content := revised
        previous := layout.block
        entriesWritten := entries.length
        changed := revised != content }

/-! ## Sessions -/

/-- The content after an attempt to replace its entries. -/
def contentAfter (content : Text) (entries : List Text) : Text :=
  match replaceEntries content entries with
  | .ok revision => revision.content
  | .error _ => content

/-- What each revision of a session gives. -/
def reviseEach (content : Text) : List (List Text) → List (Except RevisionError Revision)
  | [] => []
  | entries :: rest =>
    replaceEntries content entries :: reviseEach (contentAfter content entries) rest

/-- The contents that the revisions of a session start from. -/
def contentsBefore (content : Text) : List (List Text) → List Text
  | [] => []
  | entries :: rest => content :: contentsBefore (contentAfter content entries) rest

/-- The content that a session ends with. -/
def contentAtEnd (content : Text) (session : List (List Text)) : Text :=
  session.foldl contentAfter content

/-- The lines that each revision of a session changes, none for a revision that fails. -/
def changesOfEach (content : Text) (session : List (List Text)) : List (List Diff.LineChange) :=
  (contentsBefore content session).zipWith (fun before entries =>
    Diff.changedLines before (contentAfter before entries)) session

end ReleasePicker.Options
