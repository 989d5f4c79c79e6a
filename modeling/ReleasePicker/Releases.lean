import ReleasePicker.Text.Lines

/-!
The releases a caller supplies: trimmed, blank ones dropped, order and repetitions kept. The list of
options starts with a default entry and goes on with the releases.
-/
namespace ReleasePicker

/-- Release identifiers in the order of the caller. -/
structure ReleaseList where
  /-- The identifiers, none of them blank. -/
  releases : List Text
  deriving DecidableEq, Repr

namespace ReleaseList

/-- The entry that heads the options unless the caller names another. -/
def defaultEntry : Text :=
  "latest".toList

/-- The list of single identifiers. -/
def ofItems (items : List Text) : ReleaseList :=
  ⟨(items.map Text.trim).filter fun release => !release.isEmpty⟩

/-- The list of identifiers that stand on lines of their own. -/
def ofText (text : Text) : ReleaseList :=
  ofItems (Text.bareLines text)

/-- How many releases there are, the default entry not counted. -/
def size (list : ReleaseList) : Nat :=
  list.releases.length

/-- Whether there is no release. -/
def isEmpty (list : ReleaseList) : Bool :=
  list.releases.isEmpty

/-- The options to offer: the default entry as it is given, then every release. -/
def entries (list : ReleaseList) (defaultEntry : Text) : List Text :=
  defaultEntry :: list.releases

end ReleaseList

end ReleasePicker
