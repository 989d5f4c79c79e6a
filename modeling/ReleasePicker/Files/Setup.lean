import ReleasePicker.Files.Edit
import ReleasePicker.Files.Listing
import ReleasePicker.Files.Sibling

/-!
Laying out a file tree.
-/
namespace ReleasePicker.Files.FileTree

/-- The paths that lead to a path from above, the longest first and the path itself among them. -/
def pathsDownTo (path : Bytes) : List Bytes :=
  let names := pathNames path
  (List.range names.length).reverse.map fun above =>
    let shorter := joinNames (names.take (above + 1))
    if path.head? = some slash then slash :: shorter else shorter

/-- Make a directory unless there is one. -/
def ensureDirectory (tree : FileTree) (path : Bytes) : Except Fault FileTree :=
  match tree.createDirectory path with
  | .ok after => .ok after
  | .error fault => if tree.isDirectory path then .ok tree else .error fault

/-- Make sure of the first directory, and before that of the next one if it is missing. -/
def ensureFirst (tree : FileTree) : List Bytes → Except Fault FileTree
  | [] => .ok tree
  | path :: above =>
    match tree.ensureDirectory path with
    | .error .missing => do (← ensureFirst tree above).ensureDirectory path
    | made => made

/-- Make a directory and those above it that are missing, unless there is one. -/
def createDirectories (tree : FileTree) (path : Bytes) : Except Fault FileTree :=
  tree.ensureFirst (pathsDownTo path)

/-- Write a file in place, making it if there is none. -/
def writeFile (tree : FileTree) (path content : Bytes) : Except Fault FileTree := do
  (← tree.createFile path).appendToFile path content

/-- Put a file or link in a slot that nothing stands in. -/
def putNew (tree : FileTree) (path : Bytes) (entry : Entry) : Except Fault FileTree := do
  let slot ← tree.slot path
  let location ← tree.freeLocation slot
  if slot.slashed then throw .missing
  return tree.put location entry

/-- Give a file or link one more name. A directory has only one. -/
def addName (tree : FileTree) (path existing : Bytes) : Except Fault FileTree := do
  let slot ← tree.slot existing
  let location ←
    if slot.slashed ∨ slot.name = none then tree.locate existing else slotLocation slot
  let some entry := tree.entry? location | throw .missing
  let after ← tree.putNew path entry
  if entry matches .directory _ then throw .notPermitted
  return after

/-- Take away what stands at a path and below it. -/
def removeAll (tree : FileTree) (path : Bytes) : Except Fault FileTree := do
  let slot ← tree.slot path
  let location ← slotLocation slot
  let some entry := tree.entry? location | throw .missing
  if slot.slashed ∧ !(entry matches .directory _) then throw .notDirectory
  tree.demand .write slot.directory
  if !tree.mayClear location then throw .denied
  return tree.erase location

end ReleasePicker.Files.FileTree
