import ReleasePicker.Files.Fault
import ReleasePicker.Files.Tree

/-!
From paths to locations. A path is walked name by name from the root or from the working directory;
links are followed wherever they stand, up to a limit that all of them share, and everything that
has a name behind it must be a directory in which the caller may look names up.
-/
namespace ReleasePicker.Files

/-- The byte between the names of a path. -/
def slash : UInt8 := 0x2F

/-- The name of a directory within itself. -/
def dot : Name := [0x2E]

/-- The name of the directory above a directory within it. -/
def dotDot : Name := [0x2E, 0x2E]

/-- The longest name that a directory takes, in bytes. -/
def longestName : Nat := 255

/-- The longest path that the system takes, in bytes. -/
def longestPath : Nat := 4095

/-- How many links one walk may follow. -/
def mostLinks : Nat := 40

/-- The names of a path, repeated slashes counted once. -/
def pathNames (path : Bytes) : List Name :=
  (parts slash path).filter fun name => !name.isEmpty

/-- Whether the path says by a final slash that it names a directory. -/
def endsInSlash (path : Bytes) : Bool :=
  path.getLast? == some slash

/-- The names to walk for a path. The empty name behind a final slash asks for a directory. -/
def walkNames (path : Bytes) : List Name :=
  pathNames path ++ if endsInSlash path then [[]] else []

/-- The path of a location. -/
def Location.path (location : Location) : Bytes :=
  if location = [] then [slash] else location.flatMap (slash :: ·)

/-- What a path is walked for. -/
inductive Manner
  /-- To come to what is there. -/
  | mustExist
  /-- To come to what is there or, under the last name, could be. -/
  | mayBeNew
  /-- To work the location out name by name. Each name is looked up by the whole way to it from the
  root of the file system. Steps up and steps into the same directory change what has been worked
  out so far and are not looked up. -/
  | workedOut
  deriving DecidableEq, Repr

/-- Whether a name is looked up in the directory that it stands in. -/
def Manner.looksUp (manner : Manner) (name : Name) : Bool :=
  name != [] && (manner != .workedOut || name != dot && name != dotDot)

namespace FileTree

/-- Fail unless the caller may do something with what stands at a location. -/
def demand (tree : FileTree) (permission : Permission) (location : Location) : Except Fault Unit :=
  if tree.allows location permission then .ok () else .error .denied

/-- Fail unless a directory stands at a location. -/
def demandDirectory (tree : FileTree) (location : Location) : Except Fault Unit :=
  match tree.entry? location with
  | some (.directory _) => .ok ()
  | some _ => .error .notDirectory
  | none => .error .missing

/-- The directory that a path starts from. -/
def startOf (tree : FileTree) (path : Bytes) : Location :=
  if path.head? = some slash then [] else tree.workingDirectory

/-- Fail unless the system takes the whole way from its root to a name in a directory: the way must
not be too long, and the caller must be able to look names up in all that is above the directory.
Whether a directory stands somewhere is asked with a slash behind the way to it; of the working
directory it is known. -/
def demandWay (tree : FileTree) (here : Location) (name : Name) : Except Fault Unit :=
  if Manner.looksUp .workedOut name then
    if longestPath < (here ++ [name]).path.length then .error .nameTooLong
    else if (List.range here.length).all fun depth => tree.allows (here.take depth) .search then
      .ok ()
    else .error .denied
  else if here ≠ tree.workingDirectory ∧ longestPath ≤ here.path.length then .error .nameTooLong
  else .ok ()

/-- Fail unless a walk can get on with a name where it stands. -/
def enter (tree : FileTree) (manner : Manner) (here : Location) (name : Name) :
    Except Fault Unit := do
  if manner = .workedOut then tree.demandWay here name
  tree.demandDirectory here
  if manner.looksUp name then tree.demand .search here

/-- Walk the names from a location, following at most `links` links. -/
def walk (tree : FileTree) (manner : Manner) (links : Nat) (here : Location) (names : List Name) :
    Except Fault Location :=
  match names with
  | [] => .ok here
  | name :: rest =>
    match tree.enter manner here name with
    | .error fault => .error fault
    | .ok () =>
      if name = [] ∨ name = dot then walk tree manner links here rest
      else if name = dotDot then walk tree manner links here.dropLast rest
      else if longestName < name.length then .error .nameTooLong
      else
        match tree.entry? (here ++ [name]) with
        | none => if manner = .mayBeNew ∧ rest = [] then .ok (here ++ [name]) else .error .missing
        | some (.link target) =>
          match links with
          | 0 => .error .tooManyLinks
          | links + 1 =>
            walk tree manner links (if target.head? = some slash then [] else here)
              (walkNames target ++ rest)
        | some _ => walk tree manner links (here ++ [name]) rest
termination_by (links, names.length)

/-- What is wrong with a path as such. -/
def checkPath (path : Bytes) : Except Fault Unit :=
  if 0 ∈ path then .error .zeroByte
  else if path = [] then .error .missing
  else if longestPath < path.length then .error .nameTooLong
  else .ok ()

/-- The location that a path leads to, links followed. -/
def locate (tree : FileTree) (path : Bytes) : Except Fault Location := do
  checkPath path
  tree.walk .mustExist mostLinks (tree.startOf path) (walkNames path)

/-- The location that a path leads to or that a new file would have under it, links followed. -/
def locateNew (tree : FileTree) (path : Bytes) : Except Fault Location := do
  checkPath path
  tree.walk .mayBeNew mostLinks (tree.startOf path) (walkNames path)

/-- The location that a path leads to, found name by name. The path as a whole may have any length,
but no way to a name that is looked up may be too long. -/
def canonical (tree : FileTree) (path : Bytes) : Except Fault Location :=
  if 0 ∈ path then .error .zeroByte
  else if path = [] then .error .missing
  else tree.walk .workedOut mostLinks (tree.startOf path) (walkNames path)

/-- The place of a name in its directory, whether or not something stands there. -/
structure Slot where
  /-- The directory, links followed. -/
  directory : Location
  /-- The last name of the path, `none` if it only leads up, down or nowhere. -/
  name : Option Name
  /-- Whether a slash follows the name. -/
  slashed : Bool
  deriving DecidableEq, Repr

/-- The slot that a path names. A link in the slot itself is not followed. -/
def slot (tree : FileTree) (path : Bytes) : Except Fault Slot := do
  checkPath path
  let names := pathNames path
  let directory ← tree.walk .mustExist mostLinks (tree.startOf path) (names.dropLast ++ [dot])
  return ⟨directory, names.getLast?.filter fun name => name ≠ dot ∧ name ≠ dotDot,
    endsInSlash path⟩

end FileTree

end ReleasePicker.Files
