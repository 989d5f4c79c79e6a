import ReleasePicker.Command.Help
import ReleasePicker.Update.Run

/-!
One call of the tool, from its arguments to its exit code, its output and the file tree it leaves.
-/
namespace ReleasePicker.Command

open Update Terminal

/-- What a call of the tool prints and exits with. -/
structure Printed where
  /-- The exit code: zero for success, one for a failed run, two for a refused command line. -/
  exitCode : Nat
  /-- The output. -/
  output : Text
  /-- The log and the diagnostics. -/
  diagnostics : Text
  deriving DecidableEq, Repr

/-- The request that a command line makes, from the working directory. -/
def CommandLine.request (line : CommandLine) (releases : Text) : Request where
  root := ['.'.toNat.toUInt8]
  file := line.file
  releases := releases
  defaultEntry := line.defaultEntry
  dryRun := line.dryRun

/-- What a call prints that ends before there is something to run. -/
def printStop (environment : Environment) (stop : Stop) : Printed :=
  match stop with
  | .help => ⟨stop.exitCode, printedHelp environment, []⟩
  | .version => ⟨stop.exitCode, versionText, []⟩
  | .refused refusal => ⟨stop.exitCode, [], refusal.text⟩

/-- What a failed run prints besides its log. -/
def printFailure (styled : Bool) (failure : Failure) : Printed :=
  let line (label : String) : Text :=
    paint styled .redBold label.toList ++ ": ".toList ++ failure.message ++ ['\n']
  match failure with
  | .usage => ⟨1, usageHint styled, []⟩
  | _ => if failure.isAnswer then ⟨1, line "Error", []⟩ else ⟨1, [], line "error"⟩

/-- What a run prints: its log if that is on, and its report or why it failed. -/
def printRun (environment : Environment) (line : CommandLine) (events : List Event)
    (result : Except Failure Report) : Printed :=
  let styled := environment.stylesOutput
  let log := if line.verbose then events.flatMap (Event.render environment.stylesLog) else []
  let printed : Printed :=
    match result with
    | .ok report => ⟨0, report.render line.json styled, []⟩
    | .error failure => printFailure styled failure
  { printed with diagnostics := log ++ printed.diagnostics }

/-- Call the tool with the given access to files. -/
def callWith [Monad m] (files : Access m) (environment : Environment) (arguments : List Bytes) :
    m Printed := do
  match CommandLine.read environment arguments with
  | .error stop => return printStop environment stop
  | .ok line =>
    match line.releases with
    | none => return printRun environment line [.logging] (.error .usage)
    | some releases =>
      let outcome ← runWith files (line.request releases)
      return printRun environment line (.logging :: outcome.events) outcome.result

/-- Call the tool on a file tree. -/
def call (tag : Text) (environment : Environment) (arguments : List Bytes) (tree : Files.FileTree) :
    Printed × Files.FileTree :=
  callWith (treeAccess tag) environment arguments tree

/-- A call on a tree case by case: what it prints and which tree it leaves. -/
theorem call_eq (tag : Text) (environment : Environment) (arguments : List Bytes)
    (tree : Files.FileTree) :
    call tag environment arguments tree =
      match CommandLine.read environment arguments with
      | .error stop => (printStop environment stop, tree)
      | .ok line =>
        match line.releases with
        | none => (printRun environment line [.logging] (.error .usage), tree)
        | some releases =>
          let (outcome, after) := run tag tree (line.request releases)
          (printRun environment line (.logging :: outcome.events) outcome.result, after) := by
  unfold call callWith
  cases CommandLine.read environment arguments with
  | error stop => rfl
  | ok line =>
    dsimp only
    cases line.releases with
    | none => rfl
    | some releases => rfl

end ReleasePicker.Command
