import ReleasePicker.Text.Utf8

/-!
The environment variables that the tool looks at.
-/
namespace ReleasePicker.Command

/-- Environment variables with their values, which may be any bytes. -/
structure Environment where
  /-- The variables that are set. -/
  bindings : List (Text × Bytes)
  deriving DecidableEq, Repr

namespace Environment

/-- The value of a variable, if it is set. -/
def get? (environment : Environment) (name : String) : Option Bytes :=
  environment.bindings.lookup name.toList

/-- The variable that names the workflow. -/
def fileVariable : String := "DEPLOY_OPTIONS_FILE"

/-- The variable that names the default entry. -/
def defaultEntryVariable : String := "DEPLOY_OPTIONS_DEFAULT"

/-- The variable that forces styles. -/
def forceStylesVariable : String := "CLICOLOR_FORCE"

/-- The variable that switches the styles of the log and of help off. -/
def noStylesVariable : String := "NO_COLOR"

/-- All variables that the tool looks at. -/
def variableNames : List String :=
  [fileVariable, defaultEntryVariable, forceStylesVariable, noStylesVariable]

/-- The value of a variable as text, if it is set to text. -/
def text? (environment : Environment) (name : String) : Option Text :=
  (environment.get? name).bind Utf8.decode?

/-- Whether what the tool prints is styled. The output is taken not to be a terminal, so styles
have to be forced. -/
def stylesOutput (environment : Environment) : Bool :=
  match environment.text? forceStylesVariable with
  | some value => value != ['0']
  | none => false

/-- Whether the log is styled: it is unless that is switched off. -/
def stylesLog (environment : Environment) : Bool :=
  match environment.text? noStylesVariable with
  | some value => value.isEmpty
  | none => true

/-- Whether a variable is set to anything but nothing. -/
def isFilled (environment : Environment) (name : String) : Bool :=
  match environment.get? name with
  | some value => !value.isEmpty
  | none => false

/-- Whether help is styled: styles have to be forced, and here it counts that they may be switched
off as well. -/
def stylesHelp (environment : Environment) : Bool :=
  environment.isFilled forceStylesVariable && !environment.isFilled noStylesVariable

end Environment

end ReleasePicker.Command
