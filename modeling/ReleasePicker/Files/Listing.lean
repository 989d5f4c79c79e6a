import ReleasePicker.Files.Edit
import ReleasePicker.Files.Sibling

/-!
Looking at a file tree: what is where, which files there are below a directory, and how much of it
the caller can see.
-/
namespace ReleasePicker.Files.FileTree

/-- Whether a path leads to anything. -/
def isPresent (tree : FileTree) (path : Bytes) : Bool :=
  match tree.locate path with
  | .ok _ => true
  | .error _ => false

/-- Whether a path leads to a directory. -/
def isDirectory (tree : FileTree) (path : Bytes) : Bool :=
  match tree.locate path with
  | .ok location => ((tree.entry? location) matches some (.directory _))
  | .error _ => false

/-- The names of the entries of a directory. -/
def namesIn (tree : FileTree) (directory : Location) : List Name :=
  tree.entries.filterMap fun (place, _) =>
    if place.dropLast = directory then place.getLast? else none

/-- All that stands below a location, parents before children and siblings in the order of their
bytes, under locations relative to it. -/
def below (tree : FileTree) (root : Location) : List (Location × Entry) :=
  (tree.entries.filterMap fun (place, entry) =>
    if root.isPrefixOf place ∧ root ≠ place then some (place.drop root.length, entry)
    else none).mergeSort fun a b => a.1 ≤ b.1

/-- Whether a directory holds anything. -/
def holdsAny (tree : FileTree) (directory : Location) : Bool :=
  !(tree.namesIn directory).isEmpty

/-- Whether the caller may take away all that stands below a location. The names in every directory
must be readable, and a directory that holds any must be open for change. -/
def mayClear (tree : FileTree) (location : Location) : Bool :=
  tree.entries.all fun (place, entry) =>
    !location.isPrefixOf place || !(entry matches .directory _) ||
      tree.allows place .read &&
        (!tree.holdsAny place || tree.allows place .write && tree.allows place .search)

/-- Fail unless the caller can see what stands at a location: the content of a file, the names in a
directory and what they lead to, the target of a link. -/
def checkVisible (tree : FileTree) (location : Location) (entry : Entry) : Except Fault Unit := do
  if longestPath < location.path.length then throw .nameTooLong
  match entry with
  | .link _ => return ()
  | .file _ _ _ => tree.demand .read location
  | .directory _ =>
    tree.demand .read location
    if tree.holdsAny location then tree.demand .search location

/-- All that stands below a directory, if the caller can see all of it. -/
def inspect (tree : FileTree) (root : Location) : Except Fault (List (Location × Entry)) := do
  match tree.entry? root with
  | none => throw .missing
  | some entry => tree.checkVisible root entry
  (tree.below root).forM fun (place, entry) => tree.checkVisible (root ++ place) entry
  return tree.below root

/-- The paths, relative to a directory, of all that is not a directory below it. A link to a
directory is searched like the directory; the limit on the length of a path and the limit on links
end the search where links lead round in a circle. -/
def fileNames (tree : FileTree) (directory relative : Bytes) : List Bytes :=
  match tree.locate directory with
  | .error _ => []
  | .ok location =>
    (tree.namesIn location).flatMap fun name =>
      let path := directory ++ slash :: name
      if path.length ≤ longestPath ∧ tree.isDirectory path then
        fileNames tree path (childPath relative name)
      else [childPath relative name]
termination_by longestPath + 1 - directory.length
decreasing_by
  rename_i within
  simp +zetaDelta only [List.length_append, List.length_cons] at within ⊢
  omega

end ReleasePicker.Files.FileTree
