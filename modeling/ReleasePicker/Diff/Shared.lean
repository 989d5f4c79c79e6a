/-!
What two lists have in common at one end. Cutting it off loses nothing: the shared part and what is
left over are the two lists (`left_start`, `right_start` and their counterparts for the other end).
-/
namespace ReleasePicker.Diff

/-- Two lists cut after a shared part. -/
structure Shared (α : Type) where
  /-- The items that both lists have there. -/
  shared : List α
  /-- What is left of the first list. -/
  left : List α
  /-- What is left of the second list. -/
  right : List α
  deriving DecidableEq, Repr

variable {α : Type} [DecidableEq α]

/-- Cut two lists after their longest common beginning. -/
def commonStart : List α → List α → Shared α
  | x :: xs, y :: ys =>
    if x = y then
      let rest := commonStart xs ys
      { rest with shared := x :: rest.shared }
    else ⟨[], x :: xs, y :: ys⟩
  | left, right => ⟨[], left, right⟩

/-- Cut two lists before their longest common end. -/
def commonEnd (left right : List α) : Shared α :=
  let backwards := commonStart left.reverse right.reverse
  ⟨backwards.shared.reverse, backwards.left.reverse, backwards.right.reverse⟩

theorem left_start (left right : List α) :
    (commonStart left right).shared ++ (commonStart left right).left = left := by
  fun_induction commonStart left right with
  | case1 xs y ys rest ih => exact congrArg (y :: ·) ih
  | case2 | case3 => simp

theorem right_start (left right : List α) :
    (commonStart left right).shared ++ (commonStart left right).right = right := by
  fun_induction commonStart left right with
  | case1 xs y ys rest ih => exact congrArg (y :: ·) ih
  | case2 | case3 => simp

theorem left_end (left right : List α) :
    (commonEnd left right).left ++ (commonEnd left right).shared = left := by
  have backwards := congrArg List.reverse (left_start left.reverse right.reverse)
  simpa [commonEnd] using backwards

theorem right_end (left right : List α) :
    (commonEnd left right).right ++ (commonEnd left right).shared = right := by
  have backwards := congrArg List.reverse (right_start left.reverse right.reverse)
  simpa [commonEnd] using backwards

/-- No item of the first list is counted twice. -/
theorem length_left_start (left right : List α) :
    (commonStart left right).shared.length + (commonStart left right).left.length =
      left.length := by
  simpa using congrArg List.length (left_start left right)

theorem length_right_start (left right : List α) :
    (commonStart left right).shared.length + (commonStart left right).right.length =
      right.length := by
  simpa using congrArg List.length (right_start left right)

theorem length_left_end (left right : List α) :
    (commonEnd left right).left.length + (commonEnd left right).shared.length = left.length := by
  simpa using congrArg List.length (left_end left right)

theorem length_right_end (left right : List α) :
    (commonEnd left right).right.length + (commonEnd left right).shared.length = right.length := by
  simpa using congrArg List.length (right_end left right)

end ReleasePicker.Diff
