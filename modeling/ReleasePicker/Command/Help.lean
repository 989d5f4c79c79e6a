import ReleasePicker.Command.Line
import ReleasePicker.Terminal.Plain
import ReleasePicker.Terminal.Style

/-!
What the tool says about itself.
-/
namespace ReleasePicker.Command

/-- The name of the tool. -/
def toolName : String := "update-deploy-options"

/-- How to call the tool, in one line. -/
def usageLine : Text :=
  "Usage: update-deploy-options [OPTIONS] [RELEASES]".toList

/-- The answer to a question for the version. -/
def versionText : Text :=
  "update-deploy-options 0.1.0\n".toList

/-- The column in which the descriptions of the options stand. -/
def descriptionColumn : Nat := 39

/-- What help shows of an environment variable: its name and its value, whose further lines stand
below the first. -/
def describeVariable (environment : Environment) (name : String) : Text :=
  let value := Utf8.decodeLossy ((environment.get? name).getD [])
  "[env: ".toList ++ name.toList ++ ['='] ++
    value.flatMap (fun c => if c = '\n' then c :: List.replicate descriptionColumn ' ' else [c]) ++
    [']']

/-- A heading of help. -/
def heading (text : String) : Text :=
  Terminal.sequence Terminal.Style.bold.parameters ++
    Terminal.paint true .underlined text.toList

/-- What help shows of something that is typed as it stands. -/
def literal (text : String) : Text :=
  Terminal.paint true .bold text.toList

/-- The row of help for an option: its letter, if it has one, its name, what stands for its value,
and in their column the words on it. -/
def optionRow (letter : Option String) (name placeholder : String) (description : Text) : Text :=
  let lead :=
    match letter with
    | some letter => [' ', ' '] ++ literal letter ++ [',', ' ']
    | none => List.replicate 6 ' '
  let width := 6 + name.length + placeholder.length
  lead ++ literal name ++ placeholder.toList ++ List.replicate (descriptionColumn - width) ' ' ++
    description ++ ['\n']

/-- The words on an option that takes a value: what it is for, the variable that can set it, and the
value that it has otherwise. -/
def describeSetting (environment : Environment) (purpose : String) (variableName : String)
    (default : Text) : Text :=
  purpose.toList ++ [' '] ++ describeVariable environment variableName ++ " [default: ".toList ++
    default ++ [']']

/-- Help with its styles. The values of the environment stand in it as they are, whatever a terminal
makes of them. -/
def styledHelp (environment : Environment) : Text :=
  "Command-line interface for rewriting deploy workflow release options\n\n".toList ++
  heading "Usage:" ++ [' '] ++ literal toolName ++ " [OPTIONS] [RELEASES]\n\n".toList ++
  heading "Arguments:" ++ "\n  [RELEASES]  Newline-separated release identifiers\n\n".toList ++
  heading "Options:" ++ ['\n'] ++
  optionRow "-f" "--file" " <FILE>"
    (describeSetting environment "Workflow file to rewrite, relative to the current directory"
      Environment.fileVariable Workflow.location) ++
  optionRow none "--default-entry" " <DEFAULT_ENTRY>"
    (describeSetting environment "Entry always listed first"
      Environment.defaultEntryVariable ReleaseList.defaultEntry) ++
  optionRow none "--dry-run" "" "Show the changes without writing the file".toList ++
  optionRow none "--json" "" "Output the result as JSON for scripting".toList ++
  optionRow "-v" "--verbose" "" "Enable verbose output".toList ++
  optionRow "-h" "--help" "" "Print help".toList ++
  optionRow "-V" "--version" "" "Print version".toList ++
  "\nExample:\n  update-deploy-options \"$(git tag --list 'v*' --sort=-v:refname)\"\n".toList

/-- Help as a text. -/
def helpText (environment : Environment) : Text :=
  Terminal.plain (styledHelp environment)

/-- Help as it is printed. -/
def printedHelp (environment : Environment) : Text :=
  if environment.stylesHelp then styledHelp environment
  else Terminal.piped (styledHelp environment)

/-- What is wrong with a command line. -/
def Refusal.message : Refusal → String
  | unknownArgument => "unexpected argument found"
  | invalidValue => "a value is missing or not allowed"
  | argumentConflict => "an argument cannot be used multiple times"
  | tooManyValues => "unexpected value for an argument found"
  | invalidUtf8 => "invalid UTF-8 was detected in one or more arguments"

/-- The answer to a command line that is refused. -/
def Refusal.text (refusal : Refusal) : Text :=
  "error: ".toList ++ refusal.message.toList ++ "\n\n".toList ++ usageLine ++
    "\n\nFor more information, try '--help'.\n".toList

/-- The hint for a caller who gives no releases. -/
def usageHint (styled : Bool) : Text :=
  usageLine ++ "\nExample: update-deploy-options 'v1.0.0\\nv2.0.0\\nv3.0.0'\n\nRun ".toList ++
    Terminal.paint styled .cyan "update-deploy-options --help".toList ++
    " for all options.\n".toList

end ReleasePicker.Command
