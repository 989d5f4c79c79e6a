import ReleasePicker.Files.Replacement

/-!
What every file system keeps to, whatever is done to it: names are names that a directory takes, and
whatever stands somewhere stands in a directory.
-/
namespace ReleasePicker.Files

/-- Whether a path can lead through the name: it is not empty, leads neither up nor nowhere, and is
no path itself. -/
def IsPlain (name : Name) : Prop :=
  name ≠ [] ∧ name ≠ dot ∧ name ≠ dotDot ∧ slash ∉ name

instance (name : Name) : Decidable (IsPlain name) :=
  inferInstanceAs (Decidable (_ ∧ _))

/-- Whether a directory takes the name. -/
def IsName (name : Name) : Prop :=
  IsPlain name ∧ 0 ∉ name ∧ name.length ≤ longestName

instance (name : Name) : Decidable (IsName name) :=
  inferInstanceAs (Decidable (_ ∧ _))

namespace FileTree

/-- Whether a directory stands at a location. -/
def holdsDirectory (tree : FileTree) (location : Location) : Bool :=
  (tree.entry? location) matches some (.directory _)

/-- A tree that is a file system: whatever stands somewhere has a name and stands in a
directory. -/
structure WellFormed (tree : FileTree) : Prop where
  named : ∀ place ∈ tree.entries, place.1 ≠ [] ∧ ∀ name ∈ place.1, IsName name
  housed : ∀ place ∈ tree.entries, tree.holdsDirectory place.1.dropLast

/-- Nothing has the name of the temporary file beside the file that a path leads to. -/
def SparesTemporary (tree : FileTree) (tag : Text) (path : Bytes) : Prop :=
  ∀ location, tree.canonical path = .ok location →
    tree.entry? (location.dropLast ++ [Replacement.temporaryName tag location.path]) = none

/-- The tree with somebody at work on it whom permission bits do not bind. -/
def asAdministrator (tree : FileTree) : FileTree :=
  { tree with caller := .administrator }

/-- Nothing has the name that a path ends in. -/
def Vacant (tree : FileTree) (path : Bytes) : Prop :=
  ∀ slot location, tree.slot path = .ok slot → slotLocation slot = .ok location →
    tree.entry? location = none

/-- The path of the temporary file for a replacement of the file at a path. -/
def temporaryPath (tree : FileTree) (tag : Text) (path : Bytes) : Except FileError Bytes :=
  (Replacement.targetOf path ((tree.canonical path).map Location.path)).map fun target =>
    siblingPath target (Replacement.temporaryName tag target)

end FileTree

end ReleasePicker.Files
