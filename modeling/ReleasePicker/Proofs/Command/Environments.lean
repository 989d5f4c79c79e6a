import ReleasePicker.Command.Run
import ReleasePicker.Proofs.Command.Gifts

/-!
What the environment can change about a command line: nothing where the arguments alone are refused,
and nothing about an option that they give. An option that they do not give is set by its variable
exactly as it would be set in front of them.
-/
namespace ReleasePicker.Command

variable {given new : Given} {arguments : List Bytes} {setting : Setting}

/-- The variable that sets an option. -/
def Setting.variableName : Setting → String
  | file => Environment.fileVariable
  | defaultEntry => Environment.defaultEntryVariable

/-- Environments in which no variable differs but one. -/
def Environment.AgreeBut (name : String) (first second : Environment) : Prop :=
  ∀ other, other ≠ name → first.get? other = second.get? other

/-- Whether arguments give an option a value, however they are written. -/
def GiveSetting (arguments : List Bytes) (setting : Setting) : Prop :=
  ∃ (spelling : Spelling) (value : Bytes), spelling.arguments = arguments ∧ spelling.IsAllowed ∧
    Gift.setting setting value ∈ spelling.gifts

/-- Whether an option has been given a value. -/
def Given.hasSetting (given : Given) : Setting → Bool
  | .file => given.file.isSome
  | .defaultEntry => given.defaultEntry.isSome

/-! ## What the variables set -/

theorem setFrom_eq (given : Given) (environment : Environment) (setting : Setting) :
    given.setFrom environment setting =
      if given.hasSetting setting then .ok given
      else match environment.get? setting.variableName with
        | none => .ok given
        | some value => given.set value setting := by
  cases setting <;> rfl

/-- An option that is given is not asked for in the environment, and others only in their
variable. -/
theorem setFrom_congr {first second : Environment}
    (same : given.hasSetting setting = true ∨
      first.get? setting.variableName = second.get? setting.variableName) :
    given.setFrom first setting = given.setFrom second setting := by
  rw [setFrom_eq, setFrom_eq]
  rcases same with has | same
  · rw [if_pos has, if_pos has]
  · rw [same]

theorem setFrom_of_unset {environment : Environment}
    (unset : environment.get? setting.variableName = none) (given : Given) :
    given.setFrom environment setting = .ok given := by
  rw [setFrom_eq, unset, ite_self]

theorem setFrom_of_set {environment : Environment} {value : Bytes}
    (absent : given.hasSetting setting = false)
    (set : environment.get? setting.variableName = some value) :
    given.setFrom environment setting = given.set value setting := by
  rw [setFrom_eq, set, absent]
  rfl

theorem hasSetting_iff : given.hasSetting setting = true ↔
    ∃ value, Gift.setting setting value ∈ given.gifts := by
  cases setting <;> simp [Given.hasSetting, Given.gifts, Option.isSome_iff_exists]

/-- Setting one option leaves the other as it was. -/
theorem hasSetting_of_set {other : Setting} {value : Bytes} (distinct : other ≠ setting)
    (set : given.set value setting = .ok new) : new.hasSetting other = given.hasSetting other := by
  cases setting with
  | file =>
    obtain ⟨-, -, rfl⟩ := take_file_iff.mp set
    cases other with
    | file => exact absurd rfl distinct
    | defaultEntry => rfl
  | defaultEntry =>
    obtain ⟨-, text, -, rfl⟩ := take_defaultEntry_iff.mp set
    cases other with
    | file => rfl
    | defaultEntry => exact absurd rfl distinct

theorem hasSetting_of_setFrom {environment : Environment} {other : Setting}
    (distinct : other ≠ setting) (set : given.setFrom environment setting = .ok new) :
    new.hasSetting other = given.hasSetting other := by
  rw [setFrom_eq] at set
  split at set
  · cases set
    rfl
  · split at set
    · cases set
      rfl
    · exact hasSetting_of_set distinct set

/-- Why a value cannot be set depends on nothing but the value and whether one is set. -/
theorem set_error_congr {other : Given} {value : Bytes} {stop : Stop}
    (same : given.hasSetting setting = other.hasSetting setting)
    (refused : given.set value setting = .error stop) : other.set value setting = .error stop := by
  cases setting with
  | file =>
    have same : given.file.isSome = other.file.isSome := same
    simp only [Given.set, same] at refused ⊢
    by_cases has : other.file.isSome = true
    · simpa [has] using refused
    · by_cases empty : value = []
      · simpa [has, empty] using refused
      · simp [has, empty] at refused
  | defaultEntry =>
    have same : given.defaultEntry.isSome = other.defaultEntry.isSome := same
    simp only [Given.set, same] at refused ⊢
    by_cases has : other.defaultEntry.isSome = true
    · simpa [has] using refused
    · cases decoded : Utf8.decode? value with
      | none => simpa [has, decoded] using refused
      | some text => simp [has, decoded] at refused

/-! ## What a whole command line gives -/

theorem exists_given_of_read {line : CommandLine}
    (read : CommandLine.read ⟨[]⟩ arguments = .ok line) :
    ∃ given, Given.ofArguments arguments = .ok given := by
  rw [CommandLine.read_eq] at read
  cases gives : Given.ofArguments arguments with
  | ok given => exact ⟨given, rfl⟩
  | error stop =>
    rw [gives] at read
    cases read

/-- Arguments that are refused by themselves are refused for the same reason everywhere. -/
theorem read_eq_error {stop : Stop} (refused : CommandLine.read ⟨[]⟩ arguments = .error stop)
    (environment : Environment) : CommandLine.read environment arguments = .error stop := by
  cases gives : Given.ofArguments arguments with
  | ok given =>
    have completed : given.completedFrom ⟨[]⟩ = .ok given := completedFrom_of_unset rfl rfl given
    rw [CommandLine.read_eq, gives] at refused
    change (given.completedFrom ⟨[]⟩).map _ = _ at refused
    rw [completed] at refused
    cases refused
  | error other =>
    rw [CommandLine.read_eq, gives] at refused ⊢
    exact refused

theorem hasSetting_of_giveSetting (gives : Given.ofArguments arguments = .ok given) :
    GiveSetting arguments setting ↔ given.hasSetting setting = true := by
  rw [hasSetting_iff]
  constructor
  · rintro ⟨spelling, value, rfl, allowed, member⟩
    obtain ⟨same, -⟩ := (ofArguments_spelling allowed).mp gives
    exact ⟨value, same.subset member⟩
  · rintro ⟨value, member⟩
    obtain ⟨spelling, allowed, rfl⟩ :=
      (Progress.owes_settled Progress.start.given).exists_spelling gives
    obtain ⟨same, -⟩ := (ofArguments_spelling allowed).mp gives
    exact ⟨spelling, value, rfl, allowed, same.symm.subset member⟩

theorem completedFrom_eq (given : Given) (environment : Environment) :
    given.completedFrom environment = given.setFrom environment .file >>= fun new =>
      new.setFrom environment .defaultEntry :=
  rfl

/-- For an option that is given its variable makes no difference. -/
theorem completedFrom_congr {first second : Environment} (has : given.hasSetting setting = true)
    (agree : first.AgreeBut setting.variableName second) :
    given.completedFrom first = given.completedFrom second := by
  rw [completedFrom_eq, completedFrom_eq]
  cases setting with
  | file =>
    have same : first.get? Setting.defaultEntry.variableName = second.get? _ :=
      agree _ (by decide)
    have kept : given.setFrom first .file = given.setFrom second .file :=
      setFrom_congr (.inl has)
    rw [kept]
    refine bind_congr fun new => ?_
    exact setFrom_congr (.inr same)
  | defaultEntry =>
    have same : first.get? Setting.file.variableName = second.get? _ := agree _ (by decide)
    have asked : given.setFrom first .file = given.setFrom second .file :=
      setFrom_congr (.inr same)
    rw [asked]
    cases set : given.setFrom second .file with
    | error stop => rfl
    | ok new =>
      have distinct : Setting.defaultEntry ≠ .file := by decide
      have kept := hasSetting_of_setFrom distinct set
      exact setFrom_congr (.inl (kept.trans has))

/-- An option that is not given takes the value of its variable, if no other variable is set. -/
theorem completedFrom_of_set {environment : Environment} {value : Bytes}
    (absent : given.hasSetting setting = false)
    (set : environment.get? setting.variableName = some value)
    (unset : ∀ other, other ≠ setting → environment.get? other.variableName = none) :
    given.completedFrom environment = given.set value setting := by
  rw [completedFrom_eq]
  cases setting with
  | file =>
    have kept (new : Given) := setFrom_of_unset (unset .defaultEntry (by decide)) new
    rw [setFrom_of_set absent set]
    simp only [kept]
    cases given.set value .file <;> rfl
  | defaultEntry =>
    rw [setFrom_of_unset (unset .file (by decide))]
    exact setFrom_of_set absent set

/-- An option in front of arguments that do not give it is set to its value. -/
theorem ofArguments_equated {value : Bytes} (gives : Given.ofArguments arguments = .ok given)
    (absent : given.hasSetting setting = false) :
    Given.ofArguments ((hyphens ++ setting.name ++ equals :: value) :: arguments) =
      given.set value setting := by
  have start := Progress.owes_settled Progress.start.given
  cases set : given.set value setting with
  | error stop =>
    have unset : Progress.start.given.hasSetting setting = false := by
      cases setting <;> rfl
    have refused := set_error_congr (absent.trans unset.symm) set
    unfold Given.ofArguments
    change Progress.finish (Progress.settled Progress.start.given) _ = _
    rw [Progress.finish_cons, start.read_equated, refused]
    rfl
  | ok new =>
    have taken : given.take (.setting setting value) = .ok new := set
    obtain ⟨spelling, allowed, rfl⟩ := start.exists_spelling gives
    obtain ⟨same, named⟩ := (ofArguments_spelling allowed).mp gives
    have longer : Spelling.IsAllowed ⟨.named setting false value :: spelling.parts,
        spelling.ending⟩ := by
      simpa [Spelling.IsAllowed, Part.IsAllowed] using allowed
    exact (ofArguments_spelling longer).mpr
      ⟨(same.cons _).trans (gifts_of_take taken).symm, isNamed_of_take taken named⟩

/-- **The command line shields its options from the environment.** Arguments that are refused by
themselves are refused everywhere, for the same reason and with the same exit code. For an option
that they give its variable makes no difference, whatever its bytes. An option that they do not give
is set by its variable exactly as it is set in front of them, and refused for the same reason. -/
theorem read_shields (arguments : List Bytes) :
    (∀ stop, CommandLine.read ⟨[]⟩ arguments = .error stop → ∀ environment,
        CommandLine.read environment arguments = .error stop ∧
        ∀ tag tree, (call tag environment arguments tree).1.exitCode = stop.exitCode) ∧
    (∀ line setting, CommandLine.read ⟨[]⟩ arguments = .ok line → GiveSetting arguments setting →
        ∀ first second : Environment, first.AgreeBut setting.variableName second →
          CommandLine.read first arguments = CommandLine.read second arguments) ∧
    (∀ line setting, CommandLine.read ⟨[]⟩ arguments = .ok line → ¬ GiveSetting arguments setting →
        ∀ (environment : Environment) (value : Bytes),
          environment.get? setting.variableName = some value →
          (∀ other, other ≠ setting → environment.get? other.variableName = none) →
          CommandLine.read environment arguments =
            CommandLine.read ⟨[]⟩
              ((hyphens ++ setting.name ++ equals :: value) :: arguments)) := by
  refine ⟨?refused, ?shielded, ?moved⟩
  case refused =>
    intro stop refused environment
    have refused := read_eq_error refused environment
    refine ⟨refused, fun tag tree => ?_⟩
    rw [call_eq, refused]
    cases stop <;> rfl
  case shielded =>
    intro line setting read gives first second agree
    obtain ⟨given, ofArguments⟩ := exists_given_of_read read
    have has := (hasSetting_of_giveSetting ofArguments).mp gives
    have same := completedFrom_congr has agree
    rw [CommandLine.read_eq, CommandLine.read_eq, ofArguments]
    exact congrArg (Except.map Given.complete) same
  case moved =>
    intro line setting read absent environment value set unset
    obtain ⟨given, ofArguments⟩ := exists_given_of_read read
    rw [hasSetting_of_giveSetting ofArguments, Bool.not_eq_true] at absent
    rw [CommandLine.read_eq, CommandLine.read_eq, ofArguments,
      ofArguments_equated ofArguments absent]
    change (given.completedFrom environment).map _ = _
    rw [completedFrom_of_set absent set unset]
    cases given.set value setting with
    | error stop => rfl
    | ok new => exact (congrArg _ (completedFrom_of_unset rfl rfl new)).symm

/-- An environment in which a variable is set to a byte that is no text. -/
def Setting.brokenVariable (setting : Setting) : Environment :=
  ⟨[(setting.variableName.toList, [0xFF])]⟩

/-- An unknown option, a workflow that is given and a default entry that is not, each with a
variable that is no text. -/
theorem read_shields_broken :
    CommandLine.read Setting.file.brokenVariable [nameBytes "--fil"] =
        .error (.refused .unknownArgument) ∧
      CommandLine.read Setting.file.brokenVariable [nameBytes "-vf", nameBytes "x"] =
        CommandLine.read ⟨[]⟩ [nameBytes "-vf", nameBytes "x"] ∧
      CommandLine.read Setting.defaultEntry.brokenVariable [nameBytes "-v"] =
        CommandLine.read ⟨[]⟩ [nameBytes "--default-entry=" ++ [0xFF], nameBytes "-v"] := by
  refine ⟨?refused, ?shielded, ?moved⟩
  case refused =>
    exact ((read_shields [nameBytes "--fil"]).1 _ (by decide) _).1
  case shielded =>
    have gives : GiveSetting [nameBytes "-vf", nameBytes "x"] .file :=
      ⟨⟨[.lettered true .apart (nameBytes "x")], .nothing⟩, nameBytes "x", by decide, by decide,
        by decide⟩
    have agree : Setting.file.brokenVariable.AgreeBut Setting.file.variableName ⟨[]⟩ := by
      intro other distinct
      have unlike : (other.toList == Setting.file.variableName.toList) = false := by
        simpa [String.toList_inj] using distinct
      simp [Environment.get?, Setting.brokenVariable, List.lookup_cons, unlike]
    exact (read_shields _).2.1 ⟨none, nameBytes "x", ReleaseList.defaultEntry, false, false, true⟩
      .file (by decide) gives _ _ agree
  case moved =>
    have gives : Given.ofArguments [nameBytes "-v"] = .ok ⟨none, none, none, false, false, true⟩ :=
      by decide
    have absent : ¬ GiveSetting [nameBytes "-v"] .defaultEntry := by
      rw [hasSetting_of_giveSetting gives]
      decide
    have unset : ∀ other, other ≠ Setting.defaultEntry →
        Setting.defaultEntry.brokenVariable.get? other.variableName = none := by
      intro other distinct
      cases other with
      | file => decide
      | defaultEntry => exact absurd rfl distinct
    exact (read_shields _).2.2 ⟨none, Utf8.encode Workflow.location, ReleaseList.defaultEntry,
      false, false, true⟩ .defaultEntry (by decide) absent _ [0xFF] (by decide) unset

end ReleasePicker.Command
