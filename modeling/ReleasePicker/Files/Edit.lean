import ReleasePicker.Files.Lookup

/-!
Single operations on a file tree, as the system carries them out. Each succeeds with the tree after
it, or fails with a fault and changes nothing. A path can be followed and yet be of no use: reading,
writing, and adding and taking away names need permission besides. A file system offers the
operations that the tool asks for, and a tree is one of them.
-/
namespace ReleasePicker.Files.FileTree

/-- The content of the file that a path leads to. -/
def readFile (tree : FileTree) (path : Bytes) : Except Fault Bytes := do
  let location ← tree.locate path
  tree.demand .read location
  match tree.entry? location with
  | some (.file _ _ content) => .ok content
  | _ => .error .isDirectory

/-- The permission bits of what a path leads to. -/
def modeOf (tree : FileTree) (path : Bytes) : Except Fault Nat := do
  let location ← tree.locate path
  match (tree.entry? location).bind Entry.mode? with
  | some mode => .ok mode
  | none => .error .missing

/-- The permission bits that a file keeps when its content changes. Unless an administrator changes
it, it loses the bits that lend its user to those who run it, and its group if the group may run
it. -/
def keptMode (tree : FileTree) (mode : Nat) : Nat :=
  match tree.caller with
  | .administrator => mode
  | .owner => mode &&& if mode &&& 0o010 != 0 then 0o1777 else 0o3777

/-- Make an empty file, or empty the one that is there. The path must not say that it names a
directory. -/
def createFile (tree : FileTree) (path : Bytes) : Except Fault FileTree := do
  if endsInSlash path then
    let _ ← tree.slot path
    throw .isDirectory
  let location ← tree.locateNew path
  match tree.entry? location with
  | none =>
    tree.demand .write location.dropLast
    return tree.put location (.file tree.freshNumber tree.newFileMode [])
  | some (.file number mode _) =>
    tree.demand .write location
    return tree.changeFile number fun entry =>
      (entry.withContent []).withMode (tree.keptMode mode)
  | some _ => throw .isDirectory

/-- Write content behind that of a file. -/
def appendToFile (tree : FileTree) (path added : Bytes) : Except Fault FileTree := do
  let location ← tree.locate path
  match tree.entry? location with
  | some (.file number _ content) =>
    .ok (tree.changeFile number (Entry.withContent (content ++ added)))
  | _ => .error .isDirectory

/-- Give what a path leads to other permission bits. -/
def setMode (tree : FileTree) (path : Bytes) (mode : Nat) : Except Fault FileTree := do
  let location ← tree.locate path
  match tree.entry? location with
  | some (.file number _ _) => .ok (tree.changeFile number (Entry.withMode mode))
  | some entry => .ok (tree.put location (entry.withMode mode))
  | none => .error .missing

/-- The location of a slot, if its name is one that a directory takes. -/
def slotLocation (slot : Slot) : Except Fault Location :=
  match slot.name with
  | none => .error .busy
  | some name =>
    if longestName < name.length then .error .nameTooLong else .ok (slot.directory ++ [name])

/-- The location of a slot for a new entry: its directory takes one more name, which nothing has. -/
def freeLocation (tree : FileTree) (slot : Slot) : Except Fault Location := do
  if slot.name = none then throw .present
  let location ← slotLocation slot
  if (tree.entry? location).isSome then throw .present
  tree.demand .write slot.directory
  return location

/-- Make an empty directory. Within a directory that hands its group on, it hands the group on as
well. -/
def createDirectory (tree : FileTree) (path : Bytes) : Except Fault FileTree := do
  let slot ← tree.slot path
  let location ← tree.freeLocation slot
  let above := ((tree.entry? slot.directory).bind Entry.mode?).getD 0
  return tree.put location (.directory (tree.newDirectoryMode ||| (above &&& 0o2000)))

/-- Move a file or link to another name, in place of any file or link that has it. Moving between
two names of one file does nothing. A directory neither moves nor gives way. -/
def rename (tree : FileTree) (source target : Bytes) : Except Fault FileTree := do
  let sourceSlot ← tree.slot source
  let targetSlot ← tree.slot target
  if sourceSlot.name = none ∨ targetSlot.name = none then throw .busy
  let sourceLocation ← slotLocation sourceSlot
  let targetLocation ← slotLocation targetSlot
  let some entry := tree.entry? sourceLocation | throw .missing
  if entry matches .directory _ then throw .isDirectory
  if sourceSlot.slashed ∨ targetSlot.slashed then throw .notDirectory
  let replaced := tree.entry? targetLocation
  if sourceLocation = targetLocation ∨
      entry.number?.isSome ∧ entry.number? = replaced.bind Entry.number? then
    return tree
  tree.demand .write sourceSlot.directory
  tree.demand .write targetSlot.directory
  if replaced matches some (.directory _) then throw .isDirectory
  return (tree.put targetLocation entry).erase sourceLocation

/-- Take away a name of a file or a link. -/
def unlink (tree : FileTree) (path : Bytes) : Except Fault FileTree := do
  let slot ← tree.slot path
  let location ← slotLocation slot
  let some entry := tree.entry? location | throw .missing
  if slot.slashed then throw (if entry matches .directory _ then .isDirectory else .notDirectory)
  tree.demand .write slot.directory
  if entry matches .directory _ then throw .isDirectory
  return tree.erase location

/-- An operation that finds something out. -/
def asking (question : FileTree → Except Fault α) : StateM FileTree (Except Fault α) :=
  fun tree => (question tree, tree)

/-- An operation that changes the tree, or fails and leaves it as it is. -/
def changing (change : FileTree → Except Fault FileTree) : StateM FileTree (Except Fault Unit) :=
  fun tree =>
    match change tree with
    | .ok after => (.ok (), after)
    | .error fault => (.error fault, tree)

/-- What an operation makes of a tree if it succeeds. -/
def effectOf (operation : StateM FileTree (Except Fault Unit)) (tree : FileTree) :
    Except Fault FileTree :=
  match operation tree with
  | (.ok (), after) => .ok after
  | (.error fault, _) => .error fault

@[simp] theorem effectOf_changing (change : FileTree → Except Fault FileTree) :
    effectOf (changing change) = change := by
  funext tree
  unfold effectOf changing
  cases change tree <;> rfl

end ReleasePicker.Files.FileTree

namespace ReleasePicker.Files

/-- What the tool asks of a system that keeps files. Any operation can fail with a fault. -/
structure FileSystem (m : Type → Type) where
  /-- The path without links of what a path leads to. -/
  resolve (path : Bytes) : m (Except Fault Bytes)
  /-- The content of the file that a path leads to. -/
  readFile (path : Bytes) : m (Except Fault Bytes)
  /-- The permission bits of what a path leads to. -/
  modeOf (path : Bytes) : m (Except Fault Nat)
  /-- Make an empty file, or empty the one that is there. -/
  createFile (path : Bytes) : m (Except Fault Unit)
  /-- Write content behind that of a file. -/
  appendToFile (path content : Bytes) : m (Except Fault Unit)
  /-- Make sure that a file has reached the disk. -/
  sync (path : Bytes) : m (Except Fault Unit)
  /-- Give what a path leads to other permission bits. -/
  setMode (path : Bytes) (mode : Nat) : m (Except Fault Unit)
  /-- Move a file or link to another name. -/
  rename (source target : Bytes) : m (Except Fault Unit)
  /-- Take away a name of a file or a link. -/
  unlink (path : Bytes) : m (Except Fault Unit)

/-- A file tree as a system that keeps files. What is in it needs no disk. -/
def treeSystem : FileSystem (StateM FileTree) where
  resolve path := FileTree.asking fun tree => (tree.canonical path).map Location.path
  readFile path := FileTree.asking fun tree => tree.readFile path
  modeOf path := FileTree.asking fun tree => tree.modeOf path
  createFile path := FileTree.changing fun tree => tree.createFile path
  appendToFile path content := FileTree.changing fun tree => tree.appendToFile path content
  sync path := FileTree.changing fun tree => (tree.locate path).map fun _ => tree
  setMode path mode := FileTree.changing fun tree => tree.setMode path mode
  rename source target := FileTree.changing fun tree => tree.rename source target
  unlink path := FileTree.changing fun tree => tree.unlink path

end ReleasePicker.Files
