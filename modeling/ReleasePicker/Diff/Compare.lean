import ReleasePicker.Diff.Shared
import ReleasePicker.Diff.MiddleSnake
import ReleasePicker.Diff.Script

/-!
The edit script between two lists. The common beginning and the common end are kept; what lies
between them is cut in two and compared part by part, or dropped and added where it cannot be cut.
-/
namespace ReleasePicker.Diff

variable {α : Type} [DecidableEq α]

/-- Where to cut two lists in two, so that neither half is the whole. -/
def cut? (left right : List α) : Option (Nat × Nat) :=
  if left = [] ∨ right = [] then none
  else (middle? left.toArray right.toArray).filter fun (i, j) =>
    0 < i + j ∧ i + j < left.length + right.length

/-- Both halves of a cut are shorter than the whole, so comparing half by half ends. -/
theorem cut?_shortens {left right : List α} {i j : Nat} (cut : cut? left right = some (i, j)) :
    (left.take i).length + (right.take j).length < left.length + right.length ∧
      (left.drop i).length + (right.drop j).length < left.length + right.length := by
  unfold cut? at cut
  split at cut
  · cases cut
  · rename_i nonempty
    have proper := (Option.filter_eq_some_iff.mp cut).2
    simp only [decide_eq_true_eq] at proper
    simp only [List.eq_nil_iff_length_eq_zero] at nonempty
    simp only [List.length_take, List.length_drop]
    omega

/-- What lies between the common ends of two lists is no longer than the lists. -/
theorem length_between (left right : List α) :
    let front := commonStart left right
    let back := commonEnd front.left front.right
    back.left.length + back.right.length ≤ left.length + right.length := by
  have front := length_left_start left right
  have front' := length_right_start left right
  have back := length_left_end (commonStart left right).left (commonStart left right).right
  have back' := length_right_end (commonStart left right).left (commonStart left right).right
  dsimp only
  omega

/-- A script from the first list to the second. -/
def compare (left right : List α) : Script α :=
  let front := commonStart left right
  let back := commonEnd front.left front.right
  let between :=
    match _cut : cut? back.left back.right with
    | none => Script.only .drop back.left ++ Script.only .add back.right
    | some (i, j) =>
      compare (back.left.take i) (back.right.take j) ++
        compare (back.left.drop i) (back.right.drop j)
  Script.only .keep front.shared ++ between ++ Script.only .keep back.shared
termination_by left.length + right.length
decreasing_by
  · exact Nat.lt_of_lt_of_le (cut?_shortens _cut).1 (length_between left right)
  · exact Nat.lt_of_lt_of_le (cut?_shortens _cut).2 (length_between left right)

end ReleasePicker.Diff
