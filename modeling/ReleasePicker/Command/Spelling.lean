import ReleasePicker.Command.Line

/-!
Command lines as a caller can write them. A line is a list of parts, each of them an option with all
that belongs to it, or the releases. Behind the parts two hyphens may stand, and the releases behind
these. What a line gives is said apart from how it is written.
-/
namespace ReleasePicker.Command

/-- The name of an option that takes a value. -/
def Setting.name : Setting → Bytes
  | file => nameBytes "file"
  | defaultEntry => nameBytes "default-entry"

/-- The name of an option that takes no value. -/
def Switch.name : Switch → Bytes
  | dryRun => nameBytes "dry-run"
  | json => nameBytes "json"
  | verbose => nameBytes "verbose"
  | help => nameBytes "help"
  | version => nameBytes "version"

/-- Two hyphens, which names stand behind and which alone take their meaning from all names that
follow. -/
def hyphens : Bytes :=
  [hyphen, hyphen]

/-- The letter of the option that names the workflow. -/
def fileLetter : UInt8 := 0x66

/-- The letter of the option that turns the log on. -/
def verboseLetter : UInt8 := 0x76

/-- Where a value stands that belongs to a letter. -/
inductive ValuePlace
  /-- In an argument of its own. -/
  | apart
  /-- Behind the letter. -/
  | joined
  /-- Behind the letter and an equals sign. -/
  | equated
  deriving DecidableEq, Repr

/-- What a value adds to the argument of its letter. -/
def ValuePlace.inside : ValuePlace → Bytes → Bytes
  | apart, _ => []
  | joined, value => value
  | equated, value => equals :: value

/-- The arguments that a value adds behind that of its letter. -/
def ValuePlace.behind : ValuePlace → Bytes → List Bytes
  | apart, value => [value]
  | _, _ => []

/-- What a caller can give, however it is written. -/
inductive Gift
  /-- The value of an option. -/
  | setting (setting : Setting) (value : Bytes)
  /-- An option that is turned on. -/
  | switch (switch : Switch)
  /-- The releases. -/
  | releases (value : Bytes)
  deriving DecidableEq, Repr

/-- A part of a command line. -/
inductive Part
  /-- An option by its name, with its value in an argument of its own or behind an equals sign. -/
  | named (setting : Setting) (isApart : Bool) (value : Bytes)
  /-- The workflow by the letter of its option, which may stand behind that of the log. -/
  | lettered (isVerbose : Bool) (place : ValuePlace) (value : Bytes)
  /-- An option without a value by its name. -/
  | switched (switch : Switch)
  /-- The log by the letter of its option. -/
  | verbose
  /-- The releases. -/
  | releases (value : Bytes)
  deriving DecidableEq, Repr

/-- Whether bytes can be taken for a value where they stand as an argument of their own: they do not
start with a hyphen, or are nothing but a hyphen. -/
def StandsAlone (value : Bytes) : Prop :=
  value.head? = some hyphen → value = [hyphen]

instance (value : Bytes) : Decidable (StandsAlone value) :=
  inferInstanceAs (Decidable (_ → _))

namespace Part

/-- Whether the value of a part can be written in the way that the part has. -/
def IsAllowed : Part → Prop
  | named _ true value | lettered _ .apart value | releases value => StandsAlone value
  | lettered _ .joined value => value ≠ [] ∧ value.head? ≠ some equals
  | _ => True

instance : (part : Part) → Decidable part.IsAllowed
  | named _ true value | lettered _ .apart value | releases value =>
    inferInstanceAs (Decidable (StandsAlone value))
  | lettered _ .joined _ => inferInstanceAs (Decidable (_ ∧ _))
  | named _ false _ | lettered _ .equated _ | switched _ | verbose =>
    inferInstanceAs (Decidable True)

/-- The arguments of a part. -/
def arguments : Part → List Bytes
  | named setting true value => [hyphens ++ setting.name, value]
  | named setting false value => [hyphens ++ setting.name ++ equals :: value]
  | lettered false place value =>
    (hyphen :: fileLetter :: place.inside value) :: place.behind value
  | lettered true place value =>
    (hyphen :: verboseLetter :: fileLetter :: place.inside value) :: place.behind value
  | switched switch => [hyphens ++ switch.name]
  | verbose => [[hyphen, verboseLetter]]
  | releases value => [value]

/-- What a part gives, in its order. -/
def gifts : Part → List Gift
  | named setting _ value => [.setting setting value]
  | lettered false _ value => [.setting .file value]
  | lettered true _ value => [.switch .verbose, .setting .file value]
  | switched switch => [.switch switch]
  | verbose => [.switch .verbose]
  | releases value => [.releases value]

end Part

/-- What stands behind the parts of a command line. -/
inductive Ending
  | nothing
  /-- Two hyphens. -/
  | hyphens
  /-- Two hyphens and the releases. -/
  | releases (value : Bytes)
  deriving DecidableEq, Repr

namespace Ending

/-- The arguments of an ending. -/
def arguments : Ending → List Bytes
  | nothing => []
  | hyphens => [Command.hyphens]
  | releases value => [Command.hyphens, value]

/-- What an ending gives. -/
def gifts : Ending → List Gift
  | releases value => [.releases value]
  | _ => []

end Ending

/-- A command line as it is written. -/
structure Spelling where
  /-- The parts in their order. -/
  parts : List Part
  /-- What stands behind them. -/
  ending : Ending
  deriving DecidableEq, Repr

namespace Spelling

/-- The arguments of a command line. -/
def arguments (spelling : Spelling) : List Bytes :=
  spelling.parts.flatMap Part.arguments ++ spelling.ending.arguments

/-- All that a command line gives, in its order. -/
def gifts (spelling : Spelling) : List Gift :=
  spelling.parts.flatMap Part.gifts ++ spelling.ending.gifts

/-- Whether every part is written in a way that its value allows. Behind the two hyphens every value
can stand. -/
def IsAllowed (spelling : Spelling) : Prop :=
  ∀ part ∈ spelling.parts, part.IsAllowed

instance (spelling : Spelling) : Decidable spelling.IsAllowed :=
  List.decidableBAll _ _

end Spelling

namespace Given

/-- Every option that is given once, and nothing else. -/
def gifts (given : Given) : List Gift :=
  given.releases.toList.map (fun text => .releases (Utf8.encode text)) ++
    given.file.toList.map (.setting .file) ++
    given.defaultEntry.toList.map (fun text => .setting .defaultEntry (Utf8.encode text)) ++
    (if given.dryRun then [.switch .dryRun] else []) ++
    (if given.json then [.switch .json] else []) ++
    (if given.verbose then [.switch .verbose] else [])

/-- Whether the workflow has a name, if one is given. -/
def IsNamed (given : Given) : Prop :=
  given.file ≠ some []

instance (given : Given) : Decidable given.IsNamed :=
  inferInstanceAs (Decidable (_ ≠ _))

end Given

end ReleasePicker.Command
