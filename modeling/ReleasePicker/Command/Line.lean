import ReleasePicker.Command.Environment
import ReleasePicker.Releases
import ReleasePicker.Workflow

/-!
Command lines. Arguments are read from left to right and the first problem wins, with one delay: a
value or the releases that stand in an argument of their own are checked only when a later argument
is accepted or the line ends, so that an unknown argument behind them is reported first. The
environment is asked last, and only for options that the line does not give.
-/
namespace ReleasePicker.Command

/-- What a command line asks for. -/
structure CommandLine where
  /-- The releases, one a line, if they are given. -/
  releases : Option Text
  /-- The workflow to revise. -/
  file : Bytes
  /-- The entry to offer first. -/
  defaultEntry : Text
  /-- Whether the run is only to try. -/
  dryRun : Bool
  /-- Whether the report is for scripts. -/
  json : Bool
  /-- Whether the log is on. -/
  verbose : Bool
  deriving DecidableEq, Repr

/-- Why a command line is refused. -/
inductive Refusal
  /-- There is no such option, or no room for one more argument. -/
  | unknownArgument
  /-- An option lacks its value, or its value is not allowed. -/
  | invalidValue
  /-- An option is given twice. -/
  | argumentConflict
  /-- An option that takes no value is given one. -/
  | tooManyValues
  /-- A value has to be text. -/
  | invalidUtf8
  deriving DecidableEq, Repr

/-- How reading a command line can end before there is something to run. -/
inductive Stop
  /-- Help was asked for. -/
  | help
  /-- The version was asked for. -/
  | version
  /-- The command line is refused. -/
  | refused (refusal : Refusal)
  deriving DecidableEq, Repr

/-- The code that the tool exits with. -/
def Stop.exitCode : Stop → Nat
  | refused _ => 2
  | _ => 0

/-- An option that takes a value. -/
inductive Setting
  | file | defaultEntry
  deriving DecidableEq, Repr

/-- An option that takes no value. -/
inductive Switch
  | dryRun | json | verbose | help | version
  deriving DecidableEq, Repr

/-- An option. -/
inductive Known
  | setting (setting : Setting)
  | switch (switch : Switch)
  deriving DecidableEq, Repr

/-- The bytes of a name that is written in the program. -/
def nameBytes (name : String) : Bytes :=
  Utf8.encode name.toList

/-- The options by their long names. -/
def longNames : List (Bytes × Known) :=
  [(nameBytes "file", .setting .file),
   (nameBytes "default-entry", .setting .defaultEntry),
   (nameBytes "dry-run", .switch .dryRun),
   (nameBytes "json", .switch .json),
   (nameBytes "verbose", .switch .verbose),
   (nameBytes "help", .switch .help),
   (nameBytes "version", .switch .version)]

/-- The options by their letters: `f`, `v`, `h` and `V`. -/
def letters : List (UInt8 × Known) :=
  [(0x66, .setting .file), (0x76, .switch .verbose), (0x68, .switch .help),
   (0x56, .switch .version)]

/-- The byte that names of options start with. -/
def hyphen : UInt8 := 0x2D

/-- The byte between the name of an option and its value. -/
def equals : UInt8 := 0x3D

/-- What the arguments so far have given. -/
structure Given where
  /-- The releases. -/
  releases : Option Text
  /-- The workflow. -/
  file : Option Bytes
  /-- The default entry. -/
  defaultEntry : Option Text
  /-- Whether the run is only to try. -/
  dryRun : Bool
  /-- Whether the report is for scripts. -/
  json : Bool
  /-- Whether the log is on. -/
  verbose : Bool
  deriving DecidableEq, Repr

/-- What has been read but not yet checked. -/
inductive Waiting
  /-- Everything has been checked. -/
  | nothing
  /-- An option with its value, or without one so far. -/
  | setting (setting : Setting) (value : Option Bytes)
  /-- The releases. -/
  | releases (value : Bytes)
  deriving DecidableEq, Repr

/-- How far reading has come. -/
structure Progress where
  /-- What has been given and checked. -/
  given : Given
  /-- What has been given and not yet checked. -/
  waiting : Waiting
  /-- Whether names of options have lost their meaning, as they do behind `--`. -/
  plainOnly : Bool
  deriving DecidableEq, Repr

/-- Before the first argument. -/
def Progress.start : Progress :=
  ⟨⟨none, none, none, false, false, false⟩, .nothing, false⟩

/-- Give an option its value. The workflow may have any name but the empty one. -/
def Given.set (given : Given) (value : Bytes) : Setting → Except Stop Given
  | .file =>
    if given.file.isSome then .error (.refused .argumentConflict)
    else if value = [] then .error (.refused .invalidValue)
    else .ok { given with file := some value }
  | .defaultEntry =>
    if given.defaultEntry.isSome then .error (.refused .argumentConflict)
    else match Utf8.decode? value with
      | none => .error (.refused .invalidUtf8)
      | some text => .ok { given with defaultEntry := some text }

/-- Turn an option on, once. -/
def Given.turnOn (given : Given) : Switch → Except Stop Given
  | .dryRun =>
    if given.dryRun then .error (.refused .argumentConflict) else .ok { given with dryRun := true }
  | .json =>
    if given.json then .error (.refused .argumentConflict) else .ok { given with json := true }
  | .verbose =>
    if given.verbose then .error (.refused .argumentConflict)
    else .ok { given with verbose := true }
  | .help => .error .help
  | .version => .error .version

namespace Progress

/-- Check what is waiting. -/
def settle (progress : Progress) : Except Stop Progress :=
  match progress.waiting with
  | .nothing => .ok progress
  | .setting _ none => .error (.refused .invalidValue)
  | .setting setting (some value) =>
    (progress.given.set value setting).map fun given =>
      { progress with given, waiting := .nothing }
  | .releases value =>
    match Utf8.decode? value with
    | none => .error (.refused .invalidUtf8)
    | some text =>
      .ok { progress with
        given := { progress.given with releases := some text }
        waiting := .nothing }

/-- Whether releases have been given, checked or not. -/
def hasReleases (progress : Progress) : Bool :=
  progress.given.releases.isSome || progress.waiting matches .releases _

/-- Read an option that takes no value. -/
def readSwitch (switch : Switch) (progress : Progress) : Except Stop Progress := do
  let progress ← progress.settle
  return { progress with given := ← progress.given.turnOn switch }

/-- Read an option that takes a value, which stands in the same argument or is still to come. -/
def readSetting (setting : Setting) (attached : Option Bytes) (progress : Progress) :
    Except Stop Progress := do
  let progress ← progress.settle
  match attached with
  | some value => return { progress with given := ← progress.given.set value setting }
  | none => return { progress with waiting := .setting setting none }

/-- Read an argument behind its two hyphens: a name, and a value if an equals sign follows. -/
def readLong (argument : Bytes) (progress : Progress) : Except Stop Progress :=
  let name := argument.takeWhile (· ≠ equals)
  let attached :=
    match argument.dropWhile (· ≠ equals) with
    | [] => none
    | _ :: value => some value
  match longNames.lookup name with
  | none => .error (.refused .unknownArgument)
  | some (.setting setting) => progress.readSetting setting attached
  | some (.switch switch) =>
    if attached.isSome then .error (.refused .tooManyValues) else progress.readSwitch switch

/-- Read letters behind one hyphen. A letter whose option takes a value takes the rest for it,
without the equals sign that it may start with. -/
def readLetters (progress : Progress) : Bytes → Except Stop Progress
  | [] => .ok progress
  | letter :: rest =>
    match letters.lookup letter with
    | none => .error (.refused .unknownArgument)
    | some (.switch switch) => do (← progress.readSwitch switch).readLetters rest
    | some (.setting setting) =>
      progress.readSetting setting <|
        match rest with
        | [] => none
        | first :: value => some (if first = equals then value else rest)

/-- Read an argument that stands for itself: the releases, for which there is room once. -/
def readPlain (argument : Bytes) (progress : Progress) : Except Stop Progress := do
  if progress.hasReleases then throw (.refused .unknownArgument)
  return { (← progress.settle) with waiting := .releases argument }

/-- Read an argument that is no option: the value that one waits for, or the releases. -/
def readValue (argument : Bytes) (progress : Progress) : Except Stop Progress :=
  match progress.waiting with
  | .setting setting none => .ok { progress with waiting := .setting setting (some argument) }
  | _ => progress.readPlain argument

/-- Read the next argument. -/
def read (progress : Progress) (argument : Bytes) : Except Stop Progress :=
  if progress.plainOnly then progress.readPlain argument
  else match argument with
    | first :: second :: rest =>
      if first ≠ hyphen then progress.readValue argument
      else if second ≠ hyphen then progress.readLetters (second :: rest)
      else if rest = [] then .ok { progress with plainOnly := true }
      else progress.readLong rest
    | _ => progress.readValue argument

end Progress

/-- Let the environment set an option that the line does not give. -/
def Given.setFrom (given : Given) (environment : Environment) (setting : Setting) :
    Except Stop Given :=
  match setting with
  | .file =>
    if given.file.isSome then .ok given
    else match environment.get? Environment.fileVariable with
      | none => .ok given
      | some value => given.set value .file
  | .defaultEntry =>
    if given.defaultEntry.isSome then .ok given
    else match environment.get? Environment.defaultEntryVariable with
      | none => .ok given
      | some value => given.set value .defaultEntry

/-- What is asked for in the end, with a value for every option. -/
def Given.complete (given : Given) : CommandLine where
  releases := given.releases
  file := given.file.getD (Utf8.encode Workflow.location)
  defaultEntry := given.defaultEntry.getD ReleaseList.defaultEntry
  dryRun := given.dryRun
  json := given.json
  verbose := given.verbose

/-- Read a command line. -/
def CommandLine.read (environment : Environment) (arguments : List Bytes) :
    Except Stop CommandLine := do
  let progress ← arguments.foldlM Progress.read Progress.start
  let given := (← progress.settle).given
  let given ← given.setFrom environment .file
  let given ← given.setFrom environment .defaultEntry
  return given.complete

end ReleasePicker.Command
