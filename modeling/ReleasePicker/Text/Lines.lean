import ReleasePicker.Text.Basic

/-!
Lines as a file holds them: each line keeps the line feed that ends it, and only the last line may
lack one. Joining the lines gives the text back (`flatten_lines`), so cutting a file into lines
loses nothing.
-/
namespace ReleasePicker.Text

/-- Whether the character ends a line, by itself or with its neighbour. -/
def breaksLine (c : Char) : Bool :=
  c == '\n' || c == '\r'

/-- The lines of a text, each with its line feed. Text that ends in a line feed has no empty last
line. -/
def lines : Text → List Text
  | [] => []
  | c :: rest =>
    if c = '\n' then [c] :: lines rest
    else match lines rest with
      | [] => [[c]]
      | line :: more => (c :: line) :: more

/-- A line with its line feed, which is the only one in it. -/
def Terminated (line : Text) : Prop :=
  ∃ body, '\n' ∉ body ∧ line = body ++ ['\n']

/-- Lines as a file holds them: all of them terminated, but the last one may lack its line feed if
there is something on it. -/
inductive Cut : List Text → Prop where
  | nil : Cut []
  | last (written : line ≠ []) (feedless : '\n' ∉ line) : Cut [line]
  | cons (ended : Terminated line) (below : Cut rest) : Cut (line :: rest)

/-- A line without its terminator: the final line feed and a carriage return right before it. A
carriage return that no line feed follows belongs to the line. -/
def bareLine (line : Text) : Text :=
  match line.reverse with
  | '\n' :: '\r' :: body => body.reverse
  | '\n' :: body => body.reverse
  | _ => line

/-- The lines of a text without their terminators. -/
def bareLines (text : Text) : List Text :=
  (lines text).map bareLine

/-- The lines of a text, joined again, are the text. -/
theorem flatten_lines (text : Text) : (lines text).flatten = text := by
  induction text with
  | nil => rfl
  | cons c rest ih =>
    simp only [lines]
    split
    · simp [ih]
    · split
      · rename_i none
        simp [none] at ih
        simp [← ih]
      · rename_i line more some
        rw [some] at ih
        simp [← ih]

end ReleasePicker.Text
