/-!
Where to cut two lists in two. Paths of edits are explored from both ends at once, with ever more
edits; on every diagonal (old position minus new position) only the furthest one is kept. The two
lists are cut where a forward path first meets a backward one, which lies on a shortest script.
-/
namespace ReleasePicker.Diff

/-- The furthest old position reached on every diagonal. -/
structure Frontier where
  /-- How far below zero the diagonals go. -/
  lowest : Nat
  /-- The positions, from the lowest diagonal on. -/
  reached : Array Nat

namespace Frontier

/-- The frontier before any edit, with room for the given number of edits. -/
def start (edits : Nat) : Frontier :=
  ⟨edits + 1, Array.replicate (2 * edits + 3) 0⟩

/-- The position reached on a diagonal, zero on one that was not reached. -/
def positionOn (frontier : Frontier) (diagonal : Int) : Nat :=
  if diagonal + frontier.lowest < 0 then 0
  else frontier.reached[(diagonal + frontier.lowest).toNat]?.getD 0

/-- The frontier with another position on a diagonal. -/
def reach (frontier : Frontier) (diagonal : Int) (position : Nat) : Frontier :=
  { frontier with
    reached := frontier.reached.setIfInBounds (diagonal + frontier.lowest).toNat position }

/-- The old position to go on from on a diagonal: the neighbouring path that is further ahead, by
an addition from above or by a removal from below. -/
def advance (frontier : Frontier) (edits : Nat) (diagonal : Int) : Nat :=
  if diagonal = -edits ∨
      diagonal ≠ edits ∧
        frontier.positionOn (diagonal - 1) < frontier.positionOn (diagonal + 1) then
    frontier.positionOn (diagonal + 1)
  else
    frontier.positionOn (diagonal - 1) + 1

end Frontier

variable {α : Type} [DecidableEq α]

/-- How many items agree from the two positions on. -/
def agreeAfter (left right : Array α) (i j : Nat) : Nat :=
  if _within : i < left.size then
    if left[i]? = right[j]? then agreeAfter left right (i + 1) (j + 1) + 1 else 0
  else 0
termination_by left.size - i

/-- How many items agree before the two positions. -/
def agreeBefore (left right : Array α) : Nat → Nat → Nat
  | i + 1, j + 1 =>
    if left[i]?.isSome && left[i]? = right[j]? then agreeBefore left right i j + 1 else 0
  | _, _ => 0

/-- The diagonals that a given number of edits leads to, the highest first. -/
def diagonals (edits : Nat) : List Int :=
  (List.range (edits + 1)).map fun (below : Nat) => (edits : Int) - 2 * below

/-- Explore one diagonal forward. An error is the meeting point of the two explorations. -/
def stepForward (left right : Array α) (edits : Nat) (backward forward : Frontier)
    (diagonal : Int) : Except (Nat × Nat) Frontier :=
  let old := forward.advance edits diagonal
  let new := (old : Int) - diagonal
  let agreed :=
    if old < left.size ∧ 0 ≤ new ∧ new < right.size then agreeAfter left right old new.toNat else 0
  let forward := forward.reach diagonal (old + agreed)
  let skew := (left.size : Int) - right.size
  if skew % 2 = 1 ∧ (diagonal - skew).natAbs + 1 ≤ edits ∧
      forward.positionOn diagonal + backward.positionOn (skew - diagonal) ≥ left.size then
    .error (old, new.toNat)
  else .ok forward

/-- Explore one diagonal backward, positions counted from the ends of the lists. An error is the
meeting point of the two explorations. -/
def stepBackward (left right : Array α) (edits : Nat) (forward backward : Frontier)
    (diagonal : Int) : Except (Nat × Nat) Frontier :=
  let old := backward.advance edits diagonal
  let new := (old : Int) - diagonal
  let agreed :=
    if old < left.size ∧ 0 ≤ new ∧ new < right.size then
      agreeBefore left right (left.size - old) (right.size - new.toNat)
    else 0
  let backward := backward.reach diagonal (old + agreed)
  let skew := (left.size : Int) - right.size
  if skew % 2 = 0 ∧ (diagonal - skew).natAbs ≤ edits ∧
      backward.positionOn diagonal + forward.positionOn (skew - diagonal) ≥ left.size then
    .error (left.size - (old + agreed), right.size - (new.toNat + agreed))
  else .ok backward

/-- Explore with one more edit, first forward and then backward. -/
def explore (left right : Array α) (frontiers : Frontier × Frontier) (edits : Nat) :
    Except (Nat × Nat) (Frontier × Frontier) := do
  let forward ← (diagonals edits).foldlM (stepForward left right edits frontiers.2) frontiers.1
  let backward ← (diagonals edits).foldlM (stepBackward left right edits forward) frontiers.2
  return (forward, backward)

/-- Where to cut the two lists, if the explorations meet. -/
def middle? (left right : Array α) : Option (Nat × Nat) :=
  let most := (left.size + right.size + 1) / 2
  let start := (Frontier.start most, Frontier.start most)
  match (List.range (most + 1)).foldlM (explore left right) start with
  | .error cut => some cut
  | .ok _ => none

end ReleasePicker.Diff
