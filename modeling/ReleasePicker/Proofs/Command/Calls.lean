import ReleasePicker.Command.Run
import ReleasePicker.Proofs.Update.Effects

/-!
What a caller can rely on in every call. A call ends in one of three ways (`call_ends`): it stops
before there is something to run, it lacks the releases, or its run ends. The exit code, the two
outputs and the tree that is left follow from the way, and of a run from its result alone.
-/
namespace ReleasePicker.Command

open Files Update Terminal

/-- A command line asks for a run on a tree that fails. -/
def CommandLine.RunFails (line : CommandLine) (tag : Text) (tree : FileTree) (failure : Failure) :
    Prop :=
  ∃ releases, line.releases = some releases ∧
    (run tag tree (line.request releases)).1.result = .error failure

/-- How a call can end: what it prints and which tree it leaves. -/
inductive CallEnds (tag : Text) (environment : Environment) (arguments : List Bytes)
    (tree : FileTree) : Printed → FileTree → Prop where
  /-- There is nothing to run. -/
  | stopped (read : CommandLine.read environment arguments = .error stop) :
      CallEnds tag environment arguments tree (printStop environment stop) tree
  /-- The releases are missing. -/
  | bare (read : CommandLine.read environment arguments = .ok line)
      (missing : line.releases = none) :
      CallEnds tag environment arguments tree
        (printRun environment line [.logging] (.error .usage)) tree
  /-- A run has ended. -/
  | ran (read : CommandLine.read environment arguments = .ok line)
      (given : line.releases = some releases)
      (ran : run tag tree (line.request releases) = (outcome, after)) :
      CallEnds tag environment arguments tree
        (printRun environment line (.logging :: outcome.events) outcome.result) after

variable {tag : Text} {environment : Environment} {arguments : List Bytes} {tree after : FileTree}
  {printed : Printed} {line : CommandLine}

theorem call_ends (called : call tag environment arguments tree = (printed, after)) :
    CallEnds tag environment arguments tree printed after := by
  rw [call_eq] at called
  cases read : CommandLine.read environment arguments with
  | error stop =>
    rw [read] at called
    cases called
    exact .stopped read
  | ok line =>
    rw [read] at called
    dsimp only at called
    cases given : line.releases with
    | none =>
      rw [given] at called
      cases called
      exact .bare read given
    | some releases =>
      rw [given] at called
      cases called
      exact .ran read given rfl

/-! ## What is printed -/

theorem isAnswer_eq_false_iff (failure : Failure) : failure.isAnswer = false ↔
    failure ≠ .usage ∧ ∀ path, failure ≠ .file (.notFound path) := by
  match failure with
  | .usage | .revision _ _ | .user _ => simp [Failure.isAnswer]
  | .file (.notFound path) | .file (.io path _) | .file (.lockFailed path) =>
    simp [Failure.isAnswer, FileError.isNotFound]

/-- Help starts with a letter, which no output drops. -/
theorem printedHelp_ne_nil (environment : Environment) : printedHelp environment ≠ [] := by
  obtain ⟨rest, starts⟩ : ∃ rest, styledHelp environment = 'C' :: rest := ⟨_, rfl⟩
  unfold printedHelp
  rw [starts]
  split
  · simp
  · simp [piped, heldUpFrom, Place.keeps, isGraphic]

theorem render_ne_nil (report : Report) (json styled : Bool) : report.render json styled ≠ [] := by
  have ended (front : Text) : front ++ ['\n'] ≠ [] :=
    List.append_ne_nil_of_right_ne_nil front (List.cons_ne_nil _ _)
  unfold Report.render Report.renderJson Report.renderProse
  split
  · exact ended _
  · split <;> exact ended _

theorem versionText_ne_nil : versionText ≠ [] := by
  decide

theorem refusal_text_ne_nil (refusal : Refusal) : refusal.text ≠ [] :=
  List.append_ne_nil_of_right_ne_nil _ (by decide)

theorem usageHint_ne_nil (styled : Bool) : usageHint styled ≠ [] :=
  List.append_ne_nil_of_right_ne_nil _ (by decide)

/-- What is printed without a log stands in one of the two outputs, and in the second one only where
something went wrong that is no answer. -/
structure Printed.IsOneSided (printed : Printed) (isWrong : Prop) : Prop where
  one : printed.output ≠ [] ↔ printed.diagnostics = []
  wrong : printed.diagnostics ≠ [] ↔ isWrong

theorem isOneSided_printStop (environment : Environment) (stop : Stop) :
    (printStop environment stop).IsOneSided (∃ refusal, stop = .refused refusal) := by
  cases stop with
  | help => exact ⟨by simp [printStop, printedHelp_ne_nil], by simp [printStop]⟩
  | version => exact ⟨by simp [printStop, versionText_ne_nil], by simp [printStop]⟩
  | refused refusal =>
    exact ⟨by simp [printStop, refusal_text_ne_nil], by simp [printStop, refusal_text_ne_nil]⟩

theorem isOneSided_printFailure (styled : Bool) (failure : Failure) :
    (printFailure styled failure).IsOneSided (failure.isAnswer = false) := by
  unfold printFailure
  cases failure with
  | usage => exact ⟨by simp [usageHint_ne_nil], by simp [Failure.isAnswer]⟩
  | file error | revision path error | user message =>
    dsimp only
    split
    · rename_i answer
      exact ⟨by simp, by simp [answer]⟩
    · rename_i wrong
      exact ⟨by simp, by simpa using wrong⟩

theorem isOneSided_printRun (environment : Environment) (quiet : line.verbose = false)
    (events : List Event) (result : Except Failure Report) :
    (printRun environment line events result).IsOneSided
      (∃ failure, result = .error failure ∧ failure.isAnswer = false) := by
  cases result with
  | ok report =>
    exact ⟨by simp [printRun, quiet, render_ne_nil], by simp [printRun, quiet]⟩
  | error failure =>
    obtain ⟨one, wrong⟩ := isOneSided_printFailure environment.stylesOutput failure
    exact ⟨by simpa [printRun, quiet] using one, by simpa [printRun, quiet] using wrong⟩

theorem exitCode_printRun (environment : Environment) (line : CommandLine) (events : List Event)
    (result : Except Failure Report) :
    (printRun environment line events result).exitCode = if result.isOk then 0 else 1 := by
  cases result with
  | ok report => rfl
  | error failure =>
    simp only [printRun, printFailure, Except.isOk, Except.toBool]
    cases failure with
    | usage => rfl
    | file error | revision path error | user message =>
      dsimp only
      split <;> rfl

/-! ## What a call comes to -/

namespace CallEnds

theorem exitCode_eq_one_iff (ends : CallEnds tag environment arguments tree printed after) :
    printed.exitCode = 1 ↔ ∃ line, CommandLine.read environment arguments = .ok line ∧
      (line.releases = none ∨ ∃ failure, line.RunFails tag tree failure) := by
  cases ends with
  | @stopped stop read =>
    have other : (printStop environment stop).exitCode ≠ 1 := by
      cases stop <;> simp [printStop, Stop.exitCode]
    simp [read, other]
  | @bare line read missing =>
    simp [read, missing, exitCode_printRun, Except.isOk, Except.toBool]
  | @ran line releases outcome _ read given ran =>
    cases ended : outcome.result <;>
      simp [read, given, exitCode_printRun, CommandLine.RunFails, ran, ended, Except.isOk,
        Except.toBool]

theorem exitCode_cases (ends : CallEnds tag environment arguments tree printed after) :
    printed.exitCode = 0 ∨ printed.exitCode = 1 ∨ printed.exitCode = 2 := by
  cases ends with
  | @stopped stop read => cases stop <;> simp [printStop, Stop.exitCode]
  | bare => exact .inr (.inl rfl)
  | ran =>
    rw [exitCode_printRun]
    split <;> simp

theorem tree_eq_of_stopped (ends : CallEnds tag environment arguments tree printed after)
    (stopped : CommandLine.read environment arguments = .error stop) : after = tree := by
  cases ends with
  | stopped => rfl
  | bare => rfl
  | ran read =>
    rw [stopped] at read
    cases read

/-- A call that runs nothing finds out nothing about the tree. -/
theorem eq_of_bare (ends : CallEnds tag environment arguments tree printed after)
    (bare : ∀ line, CommandLine.read environment arguments = .ok line → line.releases = none)
    (other : FileTree) : (call tag environment arguments other).1 = printed := by
  rw [call_eq]
  cases ends with
  | stopped read => rw [read]
  | bare read missing => simp only [read, missing]
  | ran read given =>
    rw [bare _ read] at given
    cases given

theorem isOneSided (ends : CallEnds tag environment arguments tree printed after)
    (quiet : ∀ line, CommandLine.read environment arguments = .ok line → line.verbose = false) :
    printed.IsOneSided
      ((∃ refusal, CommandLine.read environment arguments = .error (.refused refusal)) ∨
        ∃ line failure, CommandLine.read environment arguments = .ok line ∧
          line.RunFails tag tree failure ∧ failure.isAnswer = false) := by
  cases ends with
  | @stopped stop read =>
    obtain ⟨one, wrong⟩ := isOneSided_printStop environment stop
    exact ⟨one, by simpa [read] using wrong⟩
  | @bare line read missing =>
    obtain ⟨one, wrong⟩ :=
      isOneSided_printRun environment (quiet _ read) [.logging] (.error .usage)
    exact ⟨one, by simpa [read, missing, CommandLine.RunFails, Failure.isAnswer] using wrong⟩
  | @ran line releases outcome _ read given ran =>
    obtain ⟨one, wrong⟩ :=
      isOneSided_printRun environment (quiet _ read) (.logging :: outcome.events) outcome.result
    exact ⟨one, by simpa [read, given, CommandLine.RunFails, ran] using wrong⟩

section

variable (wellFormed : tree.WellFormed) (single : '/' ∉ tag)
  (spared : ∀ line releases, CommandLine.read environment arguments = .ok line →
    line.releases = some releases → tree.SparesTemporary tag (line.request releases).path)

include wellFormed single spared

/-- What a call leaves behind has been left by a run that succeeded in earnest. -/
theorem tree_eq (ends : CallEnds tag environment arguments tree printed after)
    (idle : printed.exitCode ≠ 0 ∨
      ∀ line, CommandLine.read environment arguments = .ok line → line.dryRun = true) :
    after = tree := by
  cases ends with
  | stopped => rfl
  | bare => rfl
  | @ran line releases outcome _ read given ran =>
    have ends := run_ends (line.request releases) wellFormed single
      (spared line releases read given)
    rw [ran] at ends
    dsimp only at ends
    cases ended : outcome.result with
    | error failure =>
      rw [ended] at ends
      exact ends.tree_eq
    | ok report =>
      rw [ended] at ends
      obtain ⟨-, -, -, -, dry, written, kept, -⟩ := ends.report_agrees
      have only : line.dryRun = true := by
        rcases idle with failed | only
        · rw [ended] at failed
          exact absurd rfl failed
        · exact only line read
      have dry : report.dryRun = true := dry.trans only
      exact kept (by rw [written, dry, Bool.not_true, Bool.and_false])

end

end CallEnds

/-- How a run is reported and whether it is logged has no say in what it does. -/
theorem call_congr (tag : Text) (tree : FileTree) {otherEnvironment : Environment}
    {otherArguments : List Bytes} {json verbose : Bool}
    (read : CommandLine.read environment arguments = .ok line)
    (otherRead : CommandLine.read otherEnvironment otherArguments =
      .ok { line with json := json, verbose := verbose }) :
    (call tag otherEnvironment otherArguments tree).1.exitCode =
        (call tag environment arguments tree).1.exitCode ∧
      (call tag otherEnvironment otherArguments tree).2 =
        (call tag environment arguments tree).2 := by
  rw [call_eq, call_eq, read, otherRead]
  dsimp only
  cases line.releases with
  | none => exact ⟨rfl, rfl⟩
  | some releases =>
    dsimp only
    rw [exitCode_printRun, exitCode_printRun]
    exact ⟨rfl, rfl⟩

/-- **What a caller can rely on.** The exit code is zero, one or two, and it is one if and only if
the command line is read and lacks the releases or asks for a run that fails. A call that exits with
another code than zero leaves the tree as it was, and so does one that asks for help or the version
or only tries. Without releases what it prints is the same on every tree. Without the log exactly
one of the two outputs is used, and the second one if and only if the command line is refused or the
run fails for another reason than a missing file. How the run is reported and whether it is logged
makes no difference to the exit code and the tree. The tag is the number of a process, so there is
no slash in it. -/
theorem call_contract (wellFormed : tree.WellFormed) (single : '/' ∉ tag)
    (spared : ∀ line releases, CommandLine.read environment arguments = .ok line →
      line.releases = some releases → tree.SparesTemporary tag (line.request releases).path)
    (called : call tag environment arguments tree = (printed, after)) :
    (printed.exitCode = 0 ∨ printed.exitCode = 1 ∨ printed.exitCode = 2) ∧
    (printed.exitCode = 1 ↔ ∃ line, CommandLine.read environment arguments = .ok line ∧
      (line.releases = none ∨ ∃ failure, line.RunFails tag tree failure)) ∧
    (printed.exitCode ≠ 0 → after = tree) ∧
    (∀ stop, CommandLine.read environment arguments = .error stop → after = tree) ∧
    (∀ line, CommandLine.read environment arguments = .ok line → line.dryRun = true →
      after = tree) ∧
    ((∀ line, CommandLine.read environment arguments = .ok line → line.releases = none) →
      ∀ other, (call tag environment arguments other).1 = printed) ∧
    ((∀ line, CommandLine.read environment arguments = .ok line → line.verbose = false) →
      (printed.output ≠ [] ↔ printed.diagnostics = []) ∧
      (printed.diagnostics ≠ [] ↔
        (∃ refusal, CommandLine.read environment arguments = .error (.refused refusal)) ∨
        ∃ line failure, CommandLine.read environment arguments = .ok line ∧
          line.RunFails tag tree failure ∧ failure ≠ .usage ∧
          ∀ path, failure ≠ .file (.notFound path))) ∧
    (∀ line json verbose otherEnvironment otherArguments,
      CommandLine.read environment arguments = .ok line →
      CommandLine.read otherEnvironment otherArguments =
        .ok { line with json := json, verbose := verbose } →
      (call tag otherEnvironment otherArguments tree).1.exitCode = printed.exitCode ∧
      (call tag otherEnvironment otherArguments tree).2 = after) := by
  have ends := call_ends called
  refine ⟨ends.exitCode_cases, ends.exitCode_eq_one_iff,
    fun failed => ends.tree_eq wellFormed single spared (.inl failed),
    fun stop stopped => ends.tree_eq_of_stopped stopped, ?tried, ends.eq_of_bare, ?quiet, ?reported⟩
  case tried =>
    intro line read dry
    refine ends.tree_eq wellFormed single spared (.inr fun other same => ?_)
    cases read.symm.trans same
    exact dry
  case quiet =>
    intro quiet
    obtain ⟨one, wrong⟩ := ends.isOneSided quiet
    simp only [isAnswer_eq_false_iff] at wrong
    exact ⟨one, wrong⟩
  case reported =>
    intro line json verbose otherEnvironment otherArguments read otherRead
    have same := call_congr tag tree read otherRead
    rwa [called] at same

/-- Arguments that ask for a preview of one release behind a link. -/
def previewArguments : List Bytes :=
  [nameBytes "--dry-run", nameBytes "-flink", nameBytes "v2"]

theorem call_contract_preview :
    linkedTree.WellFormed ∧ '/' ∉ "7".toList ∧
      (∀ line releases, CommandLine.read ⟨[]⟩ previewArguments = .ok line →
        line.releases = some releases →
        linkedTree.SparesTemporary "7".toList (line.request releases).path) ∧
      (call "7".toList ⟨[]⟩ previewArguments linkedTree).2 = linkedTree ∧
      ((call "7".toList ⟨[]⟩ previewArguments linkedTree).1.output ≠ [] ↔
        (call "7".toList ⟨[]⟩ previewArguments linkedTree).1.diagnostics = []) := by
  have wellFormed : linkedTree.WellFormed := ⟨by decide, by decide⟩
  have single : '/' ∉ "7".toList := by decide
  have known : CommandLine.read ⟨[]⟩ previewArguments =
      .ok ⟨some "v2".toList, nameBytes "link", ReleaseList.defaultEntry, true, false, false⟩ := by
    cbv
  have spared : ∀ line releases, CommandLine.read ⟨[]⟩ previewArguments = .ok line →
      line.releases = some releases →
      linkedTree.SparesTemporary "7".toList (line.request releases).path := by
    intro line releases read given location found
    cases known.symm.trans read
    have resolved : linkedTree.canonical linkRequest.path =
        .ok [Utf8.encode "ci".toList, Utf8.encode "first".toList] := by
      cbv
    cases resolved.symm.trans found
    decide
  obtain ⟨-, -, -, -, tried, -, quiet, -⟩ := call_contract wellFormed single spared rfl
  have unlogged : ∀ line, CommandLine.read ⟨[]⟩ previewArguments = .ok line →
      line.verbose = false := by
    intro line read
    cases known.symm.trans read
    rfl
  exact ⟨wellFormed, single, spared, tried _ known rfl, (quiet unlogged).1⟩

end ReleasePicker.Command
