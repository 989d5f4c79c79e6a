import ReleasePicker.Diff.Compaction
import ReleasePicker.Diff.Compare
import ReleasePicker.Text.Lines

/-!
The lines in which two texts differ. A line ends with a line feed, with a carriage return and a line
feed, or with a carriage return alone, and lines that end differently differ. The lines are named
without their terminators.
-/
namespace ReleasePicker.Diff

open Text (breaksLine)

/-- A line that only one of two texts has. -/
inductive LineChange
  /-- A line of the old text. -/
  | removed (line : Text)
  /-- A line of the new text. -/
  | added (line : Text)
  deriving DecidableEq, Repr

/-- The line with the sign that a preview puts in front of it. -/
def LineChange.render : LineChange → Text
  | removed line => '-' :: line
  | added line => '+' :: line

/-- The lines of a text with their terminators; a lone carriage return ends a line too. -/
def splitLines : Text → List Text
  | [] => []
  | '\r' :: '\n' :: rest => ['\r', '\n'] :: splitLines rest
  | c :: rest =>
    if breaksLine c then [c] :: splitLines rest
    else match splitLines rest with
      | [] => [[c]]
      | line :: more => (c :: line) :: more

/-- A line without its terminator. -/
def dropTerminator (line : Text) : Text :=
  line.takeWhile fun c => !breaksLine c

/-- The changes of a script, given the removals and additions since the last kept line. Between two
kept lines the removals come first. -/
def listChanges (removed added : List Text) : Script Text → List LineChange
  | [] => removed.map .removed ++ added.map .added
  | ⟨.keep, _⟩ :: rest =>
    removed.map .removed ++ added.map .added ++ listChanges [] [] rest
  | ⟨.drop, lines⟩ :: rest => listChanges (removed ++ lines.map dropTerminator) added rest
  | ⟨.add, lines⟩ :: rest => listChanges removed (added ++ lines.map dropTerminator) rest

/-- The lines in which two texts differ, in their order. -/
def changedLines (old new : Text) : List LineChange :=
  if old = new then []
  else listChanges [] [] (compact (compare (splitLines old) (splitLines new)))

end ReleasePicker.Diff
