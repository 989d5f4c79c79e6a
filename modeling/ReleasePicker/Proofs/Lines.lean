import ReleasePicker.Text.Lines
import Mathlib.Data.List.Basic

/-!
A text has one cut into lines. `Cut` says what such a cut is without saying how it is found: `lines`
finds one (`cut_lines`), and every cut is the one that `lines` finds (`lines_flatten`). So whatever
puts a file together from whole lines knows how the file will be cut again.
-/
namespace ReleasePicker.Text

theorem lines_terminated (ended : Terminated line) (rest : Text) :
    lines (line ++ rest) = line :: lines rest := by
  obtain ⟨body, closed, rfl⟩ := ended
  induction body with
  | nil => simp [lines]
  | cons c body ih =>
    simp only [List.mem_cons, not_or] at closed
    have shorter := ih closed.2
    rw [List.cons_append, List.cons_append, lines, if_neg (Ne.symm closed.1), shorter]

theorem lines_open (written : line ≠ []) (feedless : '\n' ∉ line) : lines line = [line] := by
  induction line with
  | nil => exact absurd rfl written
  | cons c body ih =>
    simp only [List.mem_cons, not_or] at feedless
    rw [lines, if_neg (Ne.symm feedless.1)]
    cases body with
    | nil => rfl
    | cons d more => rw [ih (by simp) feedless.2]

/-- Lines that were joined are cut again where they were joined. -/
theorem lines_flatten (cut : Cut pieces) : lines pieces.flatten = pieces := by
  induction cut with
  | nil => rfl
  | last written feedless => simpa using lines_open written feedless
  | cons ended _ ih => rw [List.flatten_cons, lines_terminated ended, ih]

/-- The lines of a text are a cut of it. -/
theorem cut_lines (text : Text) : Cut (lines text) := by
  induction text with
  | nil => exact .nil
  | cons c rest ih =>
    rw [lines]
    split
    · rename_i feed
      exact .cons ⟨[], by simp, by simp [feed]⟩ ih
    · rename_i plain
      -- The character joins the first line of the rest, or is a line of its own.
      cases first : lines rest with
      | nil => exact .last (by simp) (by simpa using Ne.symm plain)
      | cons line more =>
        rw [first] at ih
        cases ih with
        | last written feedless => exact .last (by simp) (by simp [feedless, Ne.symm plain])
        | cons ended below =>
          obtain ⟨body, closed, rfl⟩ := ended
          exact .cons ⟨c :: body, by simp [closed, Ne.symm plain], rfl⟩ below

theorem cut_cons (cut : Cut (line :: rest)) : (Terminated line ∨ rest = []) ∧ Cut rest := by
  cases cut with
  | last _ _ => exact ⟨.inr rfl, .nil⟩
  | cons ended below => exact ⟨.inl ended, below⟩

/-- A line has something on it, and its line feed is its last character. -/
theorem cut_head (cut : Cut (line :: rest)) : line ≠ [] ∧ '\n' ∉ line.dropLast := by
  cases cut with
  | last written feedless => exact ⟨written, fun member => feedless (List.dropLast_subset line member)⟩
  | cons ended _ =>
    obtain ⟨body, closed, rfl⟩ := ended
    exact ⟨by simp, by simpa using closed⟩

theorem Cut.left {above : List Text} (cut : Cut (above ++ pieces)) : Cut above := by
  induction above with
  | nil => exact .nil
  | cons line above ih =>
    obtain ⟨ended | none, below⟩ := cut_cons cut
    · exact .cons ended (ih below)
    · obtain ⟨rfl, rfl⟩ := List.append_eq_nil_iff.mp none
      exact cut

theorem Cut.right (above : List Text) (cut : Cut (above ++ pieces)) : Cut pieces := by
  induction above with
  | nil => exact cut
  | cons line above ih => exact ih (cut_cons cut).2

/-- A line with another one below it is terminated. -/
theorem Cut.terminated (cut : Cut (above ++ pieces)) (more : pieces ≠ []) :
    ∀ line ∈ above, Terminated line := by
  induction above with
  | nil => simp
  | cons line above ih =>
    obtain ⟨ended, below⟩ := cut_cons cut
    intro other member
    rcases List.mem_cons.mp member with rfl | member
    · exact ended.resolve_right (by simp [more])
    · exact ih below other member

theorem Cut.append (ended : ∀ line ∈ above, Terminated line) (cut : Cut pieces) :
    Cut (above ++ pieces) := by
  induction above with
  | nil => exact cut
  | cons line above ih =>
    exact .cons (ended line (by simp)) (ih fun other member => ended other (by simp [member]))

/-- After terminated lines a new line starts. -/
theorem getLast?_flatten {above : List Text} (ended : ∀ line ∈ above, Terminated line) :
    above.flatten = [] ∨ above.flatten.getLast? = some '\n' := by
  rcases List.eq_nil_or_concat above with rfl | ⟨init, line, rfl⟩
  · exact .inl rfl
  · obtain ⟨body, -, rfl⟩ := ended line (by simp)
    exact .inr (by simp)

/-- A text has as many line feeds as it has terminated lines. -/
theorem count_feeds {above : List Text} (ended : ∀ line ∈ above, Terminated line) :
    above.flatten.count '\n' = above.length := by
  induction above with
  | nil => rfl
  | cons line above ih =>
    obtain ⟨body, closed, rfl⟩ := ended line (by simp)
    have rest := ih fun other member => ended other (by simp [member])
    simp [rest, List.count_eq_zero_of_not_mem closed]

end ReleasePicker.Text
