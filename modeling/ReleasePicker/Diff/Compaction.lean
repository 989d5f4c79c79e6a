import ReleasePicker.Diff.Shared
import ReleasePicker.Diff.Script

/-!
Tidying an edit script. A removal or an addition is moved towards the front as far as it goes and
then towards the back, so that it ends up at the last place where it can stand; on the way it meets
its neighbours and edits of one kind join. An addition moves past kept items that end as it ends:
adding `xyz` after a kept `z` is adding `zxy` before it. Neither side of the script changes.
-/
namespace ReleasePicker.Diff

/-- A script around one of its edits. -/
structure Focus (α : Type) where
  /-- The edits before the one in focus, the nearest first. -/
  before : Script α
  /-- The edit in focus. -/
  edit : Edit α
  /-- The edits after the one in focus. -/
  after : Script α
  deriving DecidableEq, Repr

/-- The script without its focus. -/
def Focus.script (focus : Focus α) : Script α :=
  focus.before.reverse ++ focus.edit :: focus.after

/-- Kept items put in front of a script, as part of its first edit if that one keeps too. -/
def keepBefore (items : List α) : Script α → Script α
  | ⟨.keep, more⟩ :: rest => ⟨.keep, items ++ more⟩ :: rest
  | script => ⟨.keep, items⟩ :: script

/-- Kept items put behind a reversed script, as part of its nearest edit if that one keeps too. -/
def keepAfter (items : List α) : Script α → Script α
  | ⟨.keep, more⟩ :: rest => ⟨.keep, more ++ items⟩ :: rest
  | script => ⟨.keep, items⟩ :: script

variable {α : Type} [DecidableEq α]

/-- What the kept items in front of an edit and the edit have in common at their ends. A removal
has nothing to compare with, since its items are not in the new list. -/
def overlapBefore (kept : List α) (edit : Edit α) : Shared α :=
  commonEnd kept (if edit.action = .add then edit.items else [])

/-- What the kept items behind an edit and the edit have in common at their beginnings. -/
def overlapAfter (kept : List α) (edit : Edit α) : Shared α :=
  commonStart kept (if edit.action = .add then edit.items else [])

/-- A bound on the moves that an edit can make through a script. -/
def room : Script α → Nat
  | [] => 0
  | edit :: rest => edit.items.length + 1 + room rest

/-- Move the edit in focus towards the front until kept items stop it. -/
def moveFront (before : Script α) (edit : Edit α) (after : Script α) : Focus α :=
  match before with
  | [] => ⟨[], edit, after⟩
  | near :: far =>
    if near.action = .keep then
      let overlap := overlapBefore near.items edit
      if overlap.shared = [] then
        if near.items = [] then moveFront far edit after else ⟨near :: far, edit, after⟩
      else
        let moved : Edit α := ⟨edit.action, overlap.shared ++ overlap.right⟩
        moveFront (Script.only .keep overlap.left ++ far) moved (keepBefore overlap.shared after)
    else if near.action = edit.action then
      moveFront far ⟨edit.action, near.items ++ edit.items⟩ after
    else
      moveFront far edit (near :: after)
termination_by room before
decreasing_by
  · simp [room]
  · rename_i none
    have cut := length_left_end near.items (if edit.action = .add then edit.items else [])
    have positive : 0 < overlap.shared.length := List.length_pos_iff.mpr none
    simp +zetaDelta only [overlapBefore] at positive ⊢
    generalize commonEnd near.items (if edit.action = .add then edit.items else []) = overlap at *
    cases left : overlap.left with
    | nil => simp [Script.only, room]
    | cons item rest =>
      rw [left] at cut
      simp only [List.length_cons] at cut
      simp only [Script.only, room, List.cons_append, List.nil_append, List.length_cons]
      omega
  · simp [room]
  · simp [room]

/-- Move the edit in focus towards the back until kept items stop it. -/
def moveBack (before : Script α) (edit : Edit α) (after : Script α) : Focus α :=
  match after with
  | [] => ⟨before, edit, []⟩
  | near :: far =>
    if near.action = .keep then
      let overlap := overlapAfter near.items edit
      if overlap.shared = [] then
        if near.items = [] then moveBack before edit far else ⟨before, edit, near :: far⟩
      else
        let moved : Edit α := ⟨edit.action, overlap.right ++ overlap.shared⟩
        moveBack (keepAfter overlap.shared before) moved (Script.only .keep overlap.left ++ far)
    else if near.action = edit.action then
      moveBack before ⟨edit.action, edit.items ++ near.items⟩ far
    else
      moveBack (near :: before) edit far
termination_by room after
decreasing_by
  · simp [room]
  · rename_i none
    have cut := length_left_start near.items (if edit.action = .add then edit.items else [])
    have positive : 0 < overlap.shared.length := List.length_pos_iff.mpr none
    simp +zetaDelta only [overlapAfter] at positive ⊢
    generalize commonStart near.items (if edit.action = .add then edit.items else []) = overlap at *
    cases left : overlap.left with
    | nil => simp [Script.only, room]
    | cons item rest =>
      rw [left] at cut
      simp only [List.length_cons] at cut
      simp only [Script.only, room, List.cons_append, List.nil_append, List.length_cons]
      omega
  · simp [room]
  · simp [room]

/-- Move every edit of one kind in turn, from the front of the script to its end. The steps are
counted, for an edit that joins another one starts over from where they met. -/
def settle (action : Action) : Nat → Script α → Script α → Script α
  | 0, before, after => before.reverse ++ after
  | _ + 1, before, [] => before.reverse
  | steps + 1, before, edit :: after =>
    if edit.action = action then
      let front := moveFront before edit after
      let back := moveBack front.before front.edit front.after
      settle action steps (back.edit :: back.before) back.after
    else settle action steps (edit :: before) after

/-- Settle one kind of edit. Between two joins the focus only moves on, and every join leaves one
edit less, so the steps suffice. -/
def settleAll (action : Action) (script : Script α) : Script α :=
  settle action ((room script + 1) * (script.length + 1)) [] script

/-- The script with its removals settled and then its additions. -/
def compact (script : Script α) : Script α :=
  settleAll .add (settleAll .drop script)

end ReleasePicker.Diff
