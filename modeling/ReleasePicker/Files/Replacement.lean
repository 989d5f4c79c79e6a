import ReleasePicker.Files.Edit
import ReleasePicker.Files.Sibling

/-!
Replacing a file's content as a whole. The content goes to a temporary file in the directory of the
target, which then takes over the name, so that nobody ever sees a part of it at the target. The
sequence of steps is data: it can be stopped after any step, and any step can fail. What is done is
the same on every file system; on a tree it can be looked at step by step.
-/
namespace ReleasePicker.Files

/-- One step of a replacement. -/
inductive Step
  /-- Make the temporary file, or empty the one that is there. -/
  | create (temporary : Bytes)
  /-- Write content behind what the temporary file holds. -/
  | write (temporary content : Bytes)
  /-- Make sure that the temporary file has reached the disk. -/
  | sync (temporary : Bytes)
  /-- Give the temporary file the permission bits of the target, if there is one. -/
  | keepMode (temporary target : Bytes)
  /-- Give the temporary file the name of the target. -/
  | takeOver (temporary target : Bytes)
  deriving DecidableEq, Repr

/-- The path that an error of the step names. -/
def Step.blamed : Step → Bytes
  | create temporary => temporary
  | write temporary _ => temporary
  | sync temporary => temporary
  | keepMode temporary _ => temporary
  | takeOver _ target => target

/-- A replacement that has been found possible so far. -/
structure Replacement where
  /-- The path of the file to replace. -/
  target : Bytes
  /-- The path of the temporary file beside it. -/
  temporary : Bytes
  /-- The new content. -/
  content : Bytes
  deriving DecidableEq, Repr

namespace Replacement

/-- The steps in their order. -/
def steps (replacement : Replacement) : List Step :=
  [.create replacement.temporary,
   .write replacement.temporary replacement.content,
   .sync replacement.temporary,
   .keepMode replacement.temporary replacement.target,
   .takeOver replacement.temporary replacement.target]

/-- The name of the temporary file beside a path. The tag keeps apart the temporary files of
processes that run at the same time. -/
def temporaryName (tag : Text) (path : Bytes) : Name :=
  Utf8.encode
    (['.'] ++ Utf8.decodeLossy ((fileName? path).getD []) ++ ['.'] ++ tag ++ ".tmp".toList)

/-- The path of the file to replace, given where a path leads: the file that links lead to, or, if
they lead to nothing, the path itself. -/
def targetOf (path : Bytes) : Except Fault Bytes → Except FileError Bytes
  | .ok resolved => .ok resolved
  | .error .missing => .ok path
  | .error fault => .error (.io path fault)

/-- The replacement of the file at a target. -/
def ofTarget (tag : Text) (target content : Bytes) : Replacement :=
  ⟨target, siblingPath target (temporaryName tag target), content⟩

/-- The replacement of the file at a target, given its permission bits if it has any. A file whose
bits let nobody write is refused. -/
def ofMode (tag : Text) (target content : Bytes) : Except Fault Nat → Except FileError Replacement
  | .ok mode =>
    if mode &&& 0o222 = 0 then .error (.io target .readOnly) else .ok (ofTarget tag target content)
  | .error _ => .ok (ofTarget tag target content)

end Replacement

/-- What was read at a path, as text. A missing file is told apart from all other faults. -/
def asText (path : Bytes) : Except Fault Bytes → Except FileError Text
  | .error .missing => .error (.notFound path)
  | .error fault => .error (.io path fault)
  | .ok content =>
    match Utf8.decode? content with
    | some text => .ok text
    | none => .error (.io path .notText)

/-! ## On any file system -/

namespace FileSystem

variable [Monad m] (system : FileSystem m)

/-- Perform a step. -/
def perform : Step → m (Except Fault Unit)
  | .create temporary => system.createFile temporary
  | .write temporary content => system.appendToFile temporary content
  | .sync temporary => system.sync temporary
  | .keepMode temporary target => do
    match ← system.modeOf target with
    | .ok mode => system.setMode temporary mode
    | .error _ => return .ok ()
  | .takeOver temporary target => system.rename temporary target

/-- Perform steps up to the first that fails. -/
def performAll : List Step → m (Except FileError Unit)
  | [] => return .ok ()
  | step :: rest => do
    match ← system.perform step with
    | .ok () => performAll rest
    | .error fault => return .error (.io step.blamed fault)

/-- Carry a replacement out. A failure takes the temporary file away again, if it is there. -/
def carryOut (replacement : Replacement) : m (Except FileError Unit) := do
  match ← system.performAll replacement.steps with
  | .ok () => return .ok ()
  | .error error =>
    let _ ← system.unlink replacement.temporary
    return .error error

/-- The replacement of the file at a path. -/
def plan (tag : Text) (path content : Bytes) : m (Except FileError Replacement) := do
  match Replacement.targetOf path (← system.resolve path) with
  | .ok target => return Replacement.ofMode tag target content (← system.modeOf target)
  | .error error => return .error error

/-- Replace the content of the file at a path as a whole, or make the file. -/
def replaceFile (tag : Text) (path content : Bytes) : m (Except FileError Unit) := do
  match ← system.plan tag path content with
  | .ok replacement => system.carryOut replacement
  | .error error => return .error error

/-- The text of the file at a path. -/
def readText (path : Bytes) : m (Except FileError Text) :=
  return asText path (← system.readFile path)

end FileSystem

/-! ## On a tree -/

/-- What a step does to a tree. -/
def Step.perform (tree : FileTree) (step : Step) : Except Fault FileTree :=
  FileTree.effectOf (treeSystem.perform step) tree

/-- Two operations are needed to keep permission bits, of which only the second changes anything. -/
theorem perform_keepMode (temporary target : Bytes) :
    treeSystem.perform (.keepMode temporary target) = FileTree.changing fun tree =>
      match tree.modeOf target with
      | .ok mode => tree.setMode temporary mode
      | .error _ => .ok tree := by
  funext tree
  simp only [FileSystem.perform, treeSystem, FileTree.asking, FileTree.changing, bind, StateT.bind]
  cases tree.modeOf target <;> rfl

/-- A step that fails leaves the tree as it is. -/
theorem treeSystem_perform (step : Step) :
    treeSystem.perform step = FileTree.changing fun tree => step.perform tree := by
  obtain ⟨change, same⟩ : ∃ change, treeSystem.perform step = FileTree.changing change := by
    cases step with
    | keepMode temporary target => exact ⟨_, perform_keepMode temporary target⟩
    | create | write | sync | takeOver => exact ⟨_, rfl⟩
  unfold Step.perform
  rw [same, FileTree.effectOf_changing]

namespace Step

variable (tree : FileTree) (temporary target content : Bytes)

theorem create_perform : (create temporary).perform tree = tree.createFile temporary :=
  congrFun (FileTree.effectOf_changing _) tree

theorem write_perform :
    (write temporary content).perform tree = tree.appendToFile temporary content :=
  congrFun (FileTree.effectOf_changing _) tree

theorem sync_perform :
    (sync temporary).perform tree = (tree.locate temporary).map fun _ => tree :=
  congrFun (FileTree.effectOf_changing _) tree

theorem keepMode_perform :
    (keepMode temporary target).perform tree =
      match tree.modeOf target with
      | .ok mode => tree.setMode temporary mode
      | .error _ => .ok tree := by
  rw [perform, perform_keepMode, FileTree.effectOf_changing]

theorem takeOver_perform :
    (takeOver temporary target).perform tree = tree.rename temporary target :=
  congrFun (FileTree.effectOf_changing _) tree

end Step

namespace Replacement

/-- The replacement of the file at a path. -/
def plan (tag : Text) (tree : FileTree) (path content : Bytes) : Except FileError Replacement :=
  (treeSystem.plan tag path content tree).1

/-- Perform steps up to the first that fails. -/
def performAll (tree : FileTree) (steps : List Step) : Except FileError Unit × FileTree :=
  treeSystem.performAll steps tree

/-- Carry the replacement out. -/
def perform (replacement : Replacement) (tree : FileTree) : Except FileError Unit × FileTree :=
  treeSystem.carryOut replacement tree

/-- Planning changes nothing. -/
theorem treeSystem_plan (tag : Text) (tree : FileTree) (path content : Bytes) :
    treeSystem.plan tag path content tree =
      (match targetOf path ((tree.canonical path).map Location.path) with
        | .ok target => ofMode tag target content (tree.modeOf target)
        | .error error => .error error, tree) := by
  unfold FileSystem.plan
  cases resolved : targetOf path ((tree.canonical path).map Location.path) <;>
    simp only [treeSystem, FileTree.asking, bind, StateT.bind, resolved] <;> rfl

theorem plan_eq (tag : Text) (tree : FileTree) (path content : Bytes) :
    plan tag tree path content =
      match targetOf path ((tree.canonical path).map Location.path) with
      | .ok target => ofMode tag target content (tree.modeOf target)
      | .error error => .error error :=
  congrArg Prod.fst (treeSystem_plan tag tree path content)

theorem performAll_nil (tree : FileTree) : performAll tree [] = (.ok (), tree) :=
  rfl

theorem performAll_cons (tree : FileTree) (step : Step) (rest : List Step) :
    performAll tree (step :: rest) =
      match step.perform tree with
      | .ok after => performAll after rest
      | .error fault => (.error (.io step.blamed fault), tree) := by
  simp only [performAll, FileSystem.performAll, bind, StateT.bind, treeSystem_perform,
    FileTree.changing]
  cases step.perform tree <;> rfl

theorem perform_eq (replacement : Replacement) (tree : FileTree) :
    replacement.perform tree =
      match performAll tree replacement.steps with
      | (.ok (), after) => (.ok (), after)
      | (.error error, after) =>
        match after.unlink replacement.temporary with
        | .ok cleared => (.error error, cleared)
        | .error _ => (.error error, after) := by
  simp only [perform, FileSystem.carryOut, bind, StateT.bind, performAll]
  cases treeSystem.performAll replacement.steps tree with
  | mk result after =>
    cases result with
    | ok _ => rfl
    | error error =>
      simp only [treeSystem, FileTree.changing, bind, StateT.bind]
      cases after.unlink replacement.temporary <;> rfl

end Replacement

namespace FileTree

/-- The text of the file at a path. -/
def readText (tree : FileTree) (path : Bytes) : Except FileError Text :=
  (treeSystem.readText path tree).1

/-- Replace the content of the file at a path as a whole, or make the file. -/
def replaceFile (tag : Text) (tree : FileTree) (path content : Bytes) :
    Except FileError Unit × FileTree :=
  treeSystem.replaceFile tag path content tree

theorem readText_eq (tree : FileTree) (path : Bytes) :
    tree.readText path = asText path (tree.readFile path) :=
  rfl

theorem replaceFile_eq (tag : Text) (tree : FileTree) (path content : Bytes) :
    tree.replaceFile tag path content =
      match Replacement.plan tag tree path content with
      | .ok replacement => replacement.perform tree
      | .error error => (.error error, tree) := by
  have planned : treeSystem.plan tag path content tree =
      (Replacement.plan tag tree path content, tree) := by
    rw [Replacement.treeSystem_plan, Replacement.plan_eq]
  simp only [replaceFile, FileSystem.replaceFile, bind, StateT.bind, planned]
  cases Replacement.plan tag tree path content <;> rfl

end FileTree

end ReleasePicker.Files
