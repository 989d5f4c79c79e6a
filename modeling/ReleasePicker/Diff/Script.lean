/-!
Edit scripts between two lists. An edit carries the items it is about, so a script spells both of
its sides: the items it keeps and drops are the old list, those it keeps and adds are the new one.
-/
namespace ReleasePicker.Diff

/-- What an edit does with its items. -/
inductive Action
  /-- The items stand in both lists. -/
  | keep
  /-- The items stand in the old list only. -/
  | drop
  /-- The items stand in the new list only. -/
  | add
  deriving DecidableEq, Repr

/-- One step of an edit script. -/
structure Edit (α : Type) where
  /-- What happens to the items. -/
  action : Action
  /-- Neighbouring items with the same fate. -/
  items : List α
  deriving DecidableEq, Repr

/-- Edits in the order of both lists. -/
abbrev Script (α : Type) := List (Edit α)

/-- The items of an edit that stand in the old list. -/
def Edit.old (edit : Edit α) : List α :=
  if edit.action = .add then [] else edit.items

/-- The items of an edit that stand in the new list. -/
def Edit.new (edit : Edit α) : List α :=
  if edit.action = .drop then [] else edit.items

/-- The list that a script starts from. -/
def Script.old (script : Script α) : List α :=
  script.flatMap Edit.old

/-- The list that a script leads to. -/
def Script.new (script : Script α) : List α :=
  script.flatMap Edit.new

/-- A script of one edit, or of none where there are no items. -/
def Script.only (action : Action) : List α → Script α
  | [] => []
  | item :: rest => [⟨action, item :: rest⟩]

theorem Script.old_only (action : Action) (items : List α) :
    Script.old (Script.only action items) = if action = .add then [] else items := by
  cases items <;> cases action <;> simp [Script.only, Script.old, Edit.old]

theorem Script.new_only (action : Action) (items : List α) :
    Script.new (Script.only action items) = if action = .drop then [] else items := by
  cases items <;> cases action <;> simp [Script.only, Script.new, Edit.new]

end ReleasePicker.Diff
