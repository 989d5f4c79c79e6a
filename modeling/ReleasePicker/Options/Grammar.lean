import ReleasePicker.Options.Layout

/-!
What an options block is, said of the lines of a file and apart from any way to find it. A reader
of blocks is right if it accepts exactly these lines and gives exactly the block that they are.
-/
namespace ReleasePicker.Options

/-- Nothing but spaces and tabs. -/
def Blank (text : Text) : Prop :=
  ∀ c ∈ text, c = ' ' ∨ c = '\t'

instance (text : Text) : Decidable (Blank text) :=
  List.decidableBAll (fun c => c = ' ' ∨ c = '\t') text

/-- No line break. -/
def OneLine (text : Text) : Prop :=
  ∀ c ∈ text, c ≠ '\n' ∧ c ≠ '\r'

instance (text : Text) : Decidable (OneLine text) :=
  List.decidableBAll (fun c => c ≠ '\n' ∧ c ≠ '\r') text

/-- A quoted text on one line, all of whose quotes stand in adjacent pairs, and the value that it
is written for: each pair of quotes is one quote of the value. -/
inductive WrittenFor : (quoted value : Text) → Prop where
  | nil : WrittenFor [] []
  | pair (rest : WrittenFor quoted value) :
      WrittenFor ('\'' :: '\'' :: quoted) ('\'' :: value)
  | plain (single : c ≠ '\'') (feed : c ≠ '\n') (carriage : c ≠ '\r')
      (rest : WrittenFor quoted value) : WrittenFor (c :: quoted) (c :: value)

/-- A key line with its indentation and its terminator. -/
def IsKeyLine (indent : Text) (newline : Newline) (line : Text) : Prop :=
  ∃ tail, Blank indent ∧ Blank tail ∧ line = indent ++ keyword ++ tail ++ newline.text

/-- An entry line with its indentation and its value. A line feed, a carriage return and a line
feed, or nothing but the end of the text ends it. -/
def IsEntryLine (indent value line : Text) : Prop :=
  ∃ quoted tail ending, indent ≠ [] ∧ Blank indent ∧ WrittenFor quoted value ∧ Blank tail ∧
    (ending = [] ∨ ending = ['\n'] ∨ ending = ['\r', '\n']) ∧
    line = indent ++ ['-', ' ', '\''] ++ quoted ++ ['\''] ++ tail ++ ending

/-- Entry lines with their indentations and values, one each and in order. -/
inductive EntryRun : (run indents values : List Text) → Prop where
  | nil : EntryRun [] [] []
  | cons (first : IsEntryLine indent value line) (below : EntryRun run indents values) :
      EntryRun (line :: run) (indent :: indents) (value :: values)

/-- The first options block of a content. Of its lines, none above the key line is a key line, and
the run of entry lines below the key line goes on as far as it can. -/
def IsBlock (content : Text) (block : Block) : Prop :=
  ∃ above keyLine keyIndent run indents below,
    Text.Cut (above ++ keyLine :: (run ++ below)) ∧
    content = above.flatten ++ keyLine ++ run.flatten ++ below.flatten ∧
    (∀ line ∈ above, ¬ ∃ indent newline, IsKeyLine indent newline line) ∧
    IsKeyLine keyIndent block.newline keyLine ∧
    EntryRun run indents block.entries ∧
    (∀ line ∈ below.head?, ¬ ∃ indent value, IsEntryLine indent value line) ∧
    block.entryIndent = indents.headD (keyIndent ++ [' ', ' ']) ∧
    block.line = above.flatten.count '\n' + 1 ∧
    block.span.start = Text.byteLength (above.flatten ++ keyLine) ∧
    block.span.stop = Text.byteLength (above.flatten ++ keyLine ++ run.flatten)

end ReleasePicker.Options
