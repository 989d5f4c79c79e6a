import ReleasePicker.Update.Run

/-!
Runs that overlap on one file. A run is taken apart at the places where it uses the file: between
reading it and replacing it, any number of other runs may have a turn. All runs mean the same file,
whatever path they have for it, and reading and replacing it never fails.
-/
namespace ReleasePicker.Update

open Files

/-- What is left of a computation: its result, or its next use of a file and how it goes on. -/
inductive Task (α : Type) : Type
  | ended (result : α)
  | reads (path : Bytes) (next : Except FileError Text → Task α)
  | replaces (path content : Bytes) (next : Except FileError Unit → Task α)

namespace Task

/-- One task and then another one. -/
def andThen : Task α → (α → Task β) → Task β
  | ended result, after => after result
  | reads path next, after => reads path fun read => (next read).andThen after
  | replaces path content next, after => replaces path content fun done => (next done).andThen after

instance : Monad Task where
  pure := ended
  bind := andThen

/-- Access to files that stops before each use of them. -/
def access : Access Task where
  read path := reads path ended
  replace path content := replaces path content ended

/-- A run that has not begun. -/
def ofRequest (request : Request) : Task Outcome :=
  runWith access request

/-- Carry a task out with other access to files. -/
def via [Monad m] (files : Access m) : Task α → m α
  | ended result => pure result
  | reads path next => do (next (← files.read path)).via files
  | replaces path content next => do (next (← files.replace path content)).via files

/-- Whether nothing is left to do. -/
def isEnded : Task α → Bool
  | ended _ => true
  | _ => false

end Task

/-- Runs under way on one file. -/
structure Overlap where
  /-- The content of the file. -/
  content : Bytes
  /-- What is left of each run. -/
  tasks : List (Task Outcome)
  /-- The runs that have replaced the content, in this order. -/
  writers : List Nat

namespace Overlap

/-- Requests that are all about to be carried out on a text. -/
def start (original : Text) (requests : List Request) : Overlap :=
  ⟨Utf8.encode original, requests.map Task.ofRequest, []⟩

/-- A run takes its next step, if it has one. -/
def turn (overlap : Overlap) (runner : Nat) : Overlap :=
  match overlap.tasks[runner]? with
  | some (.reads path next) =>
    { overlap with tasks := overlap.tasks.set runner (next (asText path (.ok overlap.content))) }
  | some (.replaces _ content next) =>
    ⟨content, overlap.tasks.set runner (next (.ok ())), overlap.writers ++ [runner]⟩
  | _ => overlap

/-- The runs take their steps in the given order. -/
def turns (overlap : Overlap) (order : List Nat) : Overlap :=
  order.foldl turn overlap

/-- Whether all runs have ended. -/
def isOver (overlap : Overlap) : Bool :=
  overlap.tasks.all Task.isEnded

end Overlap

/-- Access to one file that nobody else uses. -/
def soleAccess : Access (StateM Bytes) where
  read path := fun content => (asText path (.ok content), content)
  replace _ content := fun _ => (.ok (), content)

/-- The content after requests that are carried out one after the other. -/
def inTurn (content : Bytes) (requests : List Request) : Bytes :=
  requests.foldl (fun content request => (runWith soleAccess request content).2) content

end ReleasePicker.Update
