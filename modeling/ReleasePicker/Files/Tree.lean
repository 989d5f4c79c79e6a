import ReleasePicker.Text.Utf8

/-!
The part of a file system that the tool can touch. A tree maps locations to what stands there. Names
of one file (hard links) share its number, and every change of the file reaches all of them. Who
works on a tree decides whether permission bits bind.
-/
namespace ReleasePicker.Files

/-- The name of an entry in its directory. -/
abbrev Name := Bytes

/-- Where an entry stands: the names from the root of the file system to it. -/
abbrev Location := List Name

/-- What can stand at a location. -/
inductive Entry
  /-- A name of the regular file with this number, permission bits and content. -/
  | file (number mode : Nat) (content : Bytes)
  /-- A directory with these permission bits. -/
  | directory (mode : Nat)
  /-- A symbolic link to this path. -/
  | link (target : Bytes)
  deriving DecidableEq, Repr

namespace Entry

/-- The number of a file. -/
def number? : Entry → Option Nat
  | file number _ _ => some number
  | _ => none

/-- The permission bits of an entry; a link has none of its own. -/
def mode? : Entry → Option Nat
  | file _ mode _ => some mode
  | directory mode => some mode
  | link _ => none

/-- A file with other content. -/
def withContent (content : Bytes) : Entry → Entry
  | file number mode _ => file number mode content
  | entry => entry

/-- An entry with other permission bits. -/
def withMode (mode : Nat) : Entry → Entry
  | file number _ content => file number mode content
  | directory _ => directory mode
  | entry => entry

end Entry

/-- What permission bits can allow. -/
inductive Permission
  /-- To read a file, or the names in a directory. -/
  | read
  /-- To write a file, or to add names to a directory and take them away. -/
  | write
  /-- To look names up in a directory. -/
  | search
  deriving DecidableEq, Repr

/-- The bit that allows it to the owner. -/
def Permission.ownerBit : Permission → Nat
  | read => 0o400
  | write => 0o200
  | search => 0o100

/-- Whether the permission bits of an entry allow something to its owner. A link has none, and
everything is allowed. -/
def Entry.allows (entry : Entry) (permission : Permission) : Bool :=
  match entry.mode? with
  | some mode => mode &&& permission.ownerBit != 0
  | none => true

/-- Who works on a tree. -/
inductive Caller
  /-- The owner of all that it holds but the root. Permission bits bind the owner. -/
  | owner
  /-- Somebody whom permission bits do not bind. -/
  | administrator
  deriving DecidableEq, Repr

/-- A file system, as far as it matters, and how it is worked on. -/
structure FileTree where
  /-- What stands where. A location occurs once. -/
  entries : List (Location × Entry)
  /-- The directory that relative paths start from. -/
  workingDirectory : Location
  /-- Who works on it. -/
  caller : Caller
  /-- The permission bits that the caller withholds from all that is new. -/
  mask : Nat
  deriving DecidableEq, Repr

/-- The permission bits of the root of the file system. -/
def rootMode : Nat := 0o755

namespace FileTree

/-- Permission bits without those that are withheld. -/
def masked (tree : FileTree) (mode : Nat) : Nat :=
  mode - (mode &&& tree.mask)

/-- The permission bits of a new file. -/
def newFileMode (tree : FileTree) : Nat :=
  tree.masked 0o666

/-- The permission bits of a new directory. -/
def newDirectoryMode (tree : FileTree) : Nat :=
  tree.masked 0o777

/-- What stands at a location. The root of the file system is always a directory. -/
def entry? (tree : FileTree) (location : Location) : Option Entry :=
  if location = [] then some (.directory rootMode) else tree.entries.lookup location

/-- Whether the caller may do something with what stands at a location. The root of the file system
belongs to nobody who works on trees, but everybody may look around in it. -/
def allows (tree : FileTree) (location : Location) (permission : Permission) : Bool :=
  match tree.caller with
  | .administrator => true
  | .owner =>
    if location = [] then permission != .write
    else match tree.entry? location with
      | some entry => entry.allows permission
      | none => true

/-- The tree with an entry at a location, in place of what stood there. -/
def put (tree : FileTree) (location : Location) (entry : Entry) : FileTree :=
  if (tree.entries.lookup location).isSome then
    { tree with
      entries := tree.entries.map fun (place, old) =>
        if place = location then (place, entry) else (place, old) }
  else
    { tree with entries := tree.entries ++ [(location, entry)] }

/-- The tree without what stands at a location and below it. -/
def erase (tree : FileTree) (location : Location) : FileTree :=
  { tree with entries := tree.entries.filter fun (place, _) => !location.isPrefixOf place }

/-- A number that no file has. -/
def freshNumber (tree : FileTree) : Nat :=
  tree.entries.foldl (fun fresh (_, entry) => max fresh ((entry.number?.map (· + 1)).getD 0)) 0

/-- The tree after a change to the file with this number, seen under all its names. -/
def changeFile (tree : FileTree) (number : Nat) (change : Entry → Entry) : FileTree :=
  { tree with
    entries := tree.entries.map fun (place, entry) =>
      if entry.number? = some number then (place, change entry) else (place, entry) }

end FileTree

end ReleasePicker.Files
