import ReleasePicker.Diff.Changes

/-!
Alignments of two lists: every item of either list with its fate, in one order for both. What a
preview of changes says is read off an alignment of the lines, so it can be said without a word on
how scripts are found and tidied.
-/
namespace ReleasePicker.Diff

/-- Items of two lists, each with its fate. -/
abbrev Alignment (α : Type) := List (Action × α)

namespace Alignment

/-- Items that share their fate. -/
def uniform (action : Action) (items : List α) : Alignment α :=
  items.map fun item => (action, item)

/-- The items that stand in the old list. -/
def old (alignment : Alignment α) : List α :=
  (alignment.filter fun mark => mark.1 ≠ .add).map Prod.snd

/-- The items that stand in the new list. -/
def new (alignment : Alignment α) : List α :=
  (alignment.filter fun mark => mark.1 ≠ .drop).map Prod.snd

/-- The items that share the given fate. -/
def only (action : Action) (alignment : Alignment α) : List α :=
  (alignment.filter fun mark => mark.1 = action).map Prod.snd

/-- The change that a line with a fate is. -/
def change? : Action × Text → Option LineChange
  | (.keep, _) => none
  | (.drop, line) => some (.removed (dropTerminator line))
  | (.add, line) => some (.added (dropTerminator line))

/-- The changes of an alignment of lines, in its order. -/
def changes (alignment : Alignment Text) : List LineChange :=
  alignment.filterMap change?

end Alignment

/-- The alignment that a script spells out. -/
def Script.alignment (script : Script α) : Alignment α :=
  script.flatMap fun edit => Alignment.uniform edit.action edit.items

/-- The lines that changes remove, in their order. -/
def removedLines (changes : List LineChange) : List Text :=
  changes.filterMap fun
    | .removed line => some line
    | .added _ => none

/-- The lines that changes add, in their order. -/
def addedLines (changes : List LineChange) : List Text :=
  changes.filterMap fun
    | .removed _ => none
    | .added line => some line

end ReleasePicker.Diff
