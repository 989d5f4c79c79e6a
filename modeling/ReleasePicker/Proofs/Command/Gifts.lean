import Mathlib
import ReleasePicker.Proofs.Command.Spellings
import ReleasePicker.Proofs.Utf8

/-!
What a command line gives is read whatever the order: gifts can be taken one after the other if and
only if they are, in some order, those of what they come to (`foldlM_take_iff`). So a command line
is read as what it gives, however it is written.
-/
namespace ReleasePicker.Command

variable {given new : Given} {gift : Gift} {gifts : List Gift}

/-! ## One more gift -/

theorem decode?_eq_some_iff {bytes : Bytes} {text : Text} :
    Utf8.decode? bytes = some text ↔ bytes = Utf8.encode text :=
  ⟨fun read => (Utf8.encode_of_decode? read).symm, fun same => same ▸ Utf8.decode?_encode text⟩

theorem take_file_iff {value : Bytes} : given.take (.setting .file value) = .ok new ↔
    given.file = none ∧ value ≠ [] ∧ new = { given with file := some value } := by
  unfold Given.take Given.set
  cases given.file with
  | some _ => simp
  | none => by_cases empty : value = [] <;> simp [empty, eq_comm]

theorem take_defaultEntry_iff {value : Bytes} :
    given.take (.setting .defaultEntry value) = .ok new ↔
      given.defaultEntry = none ∧ ∃ text, value = Utf8.encode text ∧
        new = { given with defaultEntry := some text } := by
  simp only [← decode?_eq_some_iff]
  unfold Given.take Given.set
  cases given.defaultEntry with
  | some _ => simp
  | none => cases decoded : Utf8.decode? value <;> simp [decoded, eq_comm]

theorem take_releases_iff {value : Bytes} : given.take (.releases value) = .ok new ↔
    given.releases = none ∧ ∃ text, value = Utf8.encode text ∧
      new = { given with releases := some text } := by
  simp only [← decode?_eq_some_iff]
  unfold Given.take
  cases given.releases with
  | some _ => simp
  | none => cases decoded : Utf8.decode? value <;> simp [decoded, eq_comm]

theorem take_switch_iff (switch : Switch) : given.take (.switch switch) = .ok new ↔
    match switch with
    | .dryRun => given.dryRun = false ∧ new = { given with dryRun := true }
    | .json => given.json = false ∧ new = { given with json := true }
    | .verbose => given.verbose = false ∧ new = { given with verbose := true }
    | .help | .version => False := by
  unfold Given.take Given.turnOn
  cases switch with
  | dryRun => cases given.dryRun <;> simp [eq_comm]
  | json => cases given.json <;> simp [eq_comm]
  | verbose => cases given.verbose <;> simp [eq_comm]
  | help | version => simp

/-- A gift that is taken is one more of what is given. -/
theorem gifts_of_take (taken : given.take gift = .ok new) :
    new.gifts.Perm (gift :: given.gifts) := by
  rw [List.perm_iff_count]
  intro other
  obtain ⟨releases, file, defaultEntry, dryRun, json, verbose⟩ := given
  match gift with
  | .setting .file value =>
    obtain ⟨absent, -, rfl⟩ := take_file_iff.mp taken
    cases absent
    simp only [Given.gifts, List.count_append, List.count_cons, Option.toList, List.map]
    omega
  | .setting .defaultEntry value =>
    obtain ⟨absent, text, rfl, rfl⟩ := take_defaultEntry_iff.mp taken
    cases absent
    simp only [Given.gifts, List.count_append, List.count_cons, Option.toList, List.map]
    omega
  | .releases value =>
    obtain ⟨absent, text, rfl, rfl⟩ := take_releases_iff.mp taken
    cases absent
    simp only [Given.gifts, List.count_append, List.count_cons, Option.toList, List.map]
    omega
  | .switch switch =>
    have turned := (take_switch_iff switch).mp taken
    cases switch with
    | help | version => exact turned.elim
    | dryRun | json | verbose =>
      obtain ⟨absent, rfl⟩ := turned
      cases absent
      simp only [Given.gifts, List.count_append, List.count_cons, if_true, Bool.false_eq_true,
        if_false]
      omega

/-- A workflow that is given has a name. -/
theorem isNamed_of_take (taken : given.take gift = .ok new) (named : given.IsNamed) :
    new.IsNamed := by
  match gift with
  | .setting .file value =>
    obtain ⟨-, filled, rfl⟩ := take_file_iff.mp taken
    simpa [Given.IsNamed] using filled
  | .setting .defaultEntry value =>
    obtain ⟨-, text, -, rfl⟩ := take_defaultEntry_iff.mp taken
    exact named
  | .releases value =>
    obtain ⟨-, text, -, rfl⟩ := take_releases_iff.mp taken
    exact named
  | .switch switch =>
    have turned := (take_switch_iff switch).mp taken
    cases switch with
    | help | version => exact turned.elim
    | dryRun | json | verbose =>
      obtain ⟨-, rfl⟩ := turned
      exact named

/-- Whatever is given can have been given last. -/
theorem exists_take (named : new.IsNamed) (member : gift ∈ new.gifts) :
    ∃ given : Given, given.IsNamed ∧ given.take gift = .ok new := by
  simp only [Given.gifts, List.mem_append, List.mem_map, Option.mem_toList, List.mem_ite_nil_right,
    List.mem_singleton] at member
  rcases member with ((((⟨text, given, rfl⟩ | ⟨value, given, rfl⟩) | ⟨text, given, rfl⟩) |
    ⟨given, rfl⟩) | ⟨given, rfl⟩) | ⟨given, rfl⟩
  · exact ⟨{ new with releases := none }, named,
      take_releases_iff.mpr ⟨rfl, text, rfl, by rw [← given]⟩⟩
  · refine ⟨{ new with file := none }, by simp [Given.IsNamed],
      take_file_iff.mpr ⟨rfl, ?_, by rw [← given]⟩⟩
    rintro rfl
    exact named given
  · exact ⟨{ new with defaultEntry := none }, named,
      take_defaultEntry_iff.mpr ⟨rfl, text, rfl, by rw [← given]⟩⟩
  · exact ⟨{ new with dryRun := false }, named,
      (take_switch_iff .dryRun).mpr ⟨rfl, by rw [← given]⟩⟩
  · exact ⟨{ new with json := false }, named,
      (take_switch_iff .json).mpr ⟨rfl, by rw [← given]⟩⟩
  · exact ⟨{ new with verbose := false }, named,
      (take_switch_iff .verbose).mpr ⟨rfl, by rw [← given]⟩⟩

/-- Nothing is given before the first argument. -/
theorem gifts_eq_nil_iff : given.gifts = [] ↔ given = Progress.start.given := by
  obtain ⟨releases, file, defaultEntry, dryRun, json, verbose⟩ := given
  simp [Given.gifts, Progress.start]

/-- Gifts can be taken one after the other if and only if they are all that is given in the end, in
whatever order. -/
theorem foldlM_take_iff : gifts.foldlM Given.take Progress.start.given = .ok new ↔
    gifts.Perm new.gifts ∧ new.IsNamed := by
  induction gifts using List.reverseRecOn generalizing new with
  | nil =>
    rw [List.nil_perm, gifts_eq_nil_iff]
    constructor
    · intro same
      cases same
      exact ⟨rfl, by decide⟩
    · rintro ⟨rfl, -⟩
      rfl
  | append_singleton gifts gift ih =>
    have last : ∀ given, [gift].foldlM Given.take given = given.take gift :=
      fun given => foldlM_single _ given gift
    rw [List.foldlM_append]
    constructor
    · intro taken
      cases before : gifts.foldlM Given.take Progress.start.given with
      | error stop => rw [before] at taken; cases taken
      | ok given =>
        rw [before] at taken
        obtain ⟨same, named⟩ := ih.mp before
        have taken := (last given).symm.trans taken
        have more := (same.cons gift).trans (gifts_of_take taken).symm
        exact ⟨(List.perm_append_singleton gift gifts).trans more, isNamed_of_take taken named⟩
    · rintro ⟨same, named⟩
      have member : gift ∈ new.gifts := same.subset (by simp)
      obtain ⟨given, named, taken⟩ := exists_take named member
      have whole := (List.perm_append_singleton gift gifts).symm.trans same
      have before : gifts.Perm given.gifts := (whole.trans (gifts_of_take taken)).cons_inv
      rw [ih.mpr ⟨before, named⟩]
      exact (last given).trans taken

/-! ## Whole command lines -/

/-- What arguments give by themselves. -/
def Given.ofArguments (arguments : List Bytes) : Except Stop Given :=
  Progress.start.finish arguments

/-- What is given when the environment has set the options that are not given. -/
def Given.completedFrom (given : Given) (environment : Environment) : Except Stop Given := do
  (← given.setFrom environment .file).setFrom environment .defaultEntry

/-- The environment has a say only where the arguments alone are in order. -/
theorem CommandLine.read_eq (environment : Environment) (arguments : List Bytes) :
    CommandLine.read environment arguments =
      (Given.ofArguments arguments >>= fun given => given.completedFrom environment).map
        Given.complete := by
  unfold CommandLine.read Given.ofArguments Progress.finish
  cases arguments.foldlM Progress.read Progress.start with
  | error stop => rfl
  | ok progress =>
    change (progress.settle >>= _) = ((progress.settle.map Progress.given) >>= _).map _
    cases progress.settle with
    | error stop => rfl
    | ok checked =>
      change (checked.given.setFrom environment .file >>= _) =
        (checked.given.setFrom environment .file >>= _).map _
      cases checked.given.setFrom environment .file with
      | error stop => rfl
      | ok given =>
        change (given.setFrom environment .defaultEntry >>= _) =
          (given.setFrom environment .defaultEntry).map _
        cases given.setFrom environment .defaultEntry <;> rfl

/-- Arguments that are allowed give what they are written for. -/
theorem ofArguments_spelling {spelling : Spelling} (allowed : spelling.IsAllowed) :
    Given.ofArguments spelling.arguments = .ok given ↔
      spelling.gifts.Perm given.gifts ∧ given.IsNamed := by
  rw [← foldlM_take_iff]
  exact (Progress.owes_settled Progress.start.given).finish_parts allowed spelling.ending given

/-- Without variables the environment sets nothing. -/
theorem completedFrom_of_unset {environment : Environment}
    (noFile : environment.get? Environment.fileVariable = none)
    (noDefaultEntry : environment.get? Environment.defaultEntryVariable = none) (given : Given) :
    given.completedFrom environment = .ok given := by
  unfold Given.completedFrom Given.setFrom
  simp only [noFile, noDefaultEntry]
  cases given.file <;> cases defaultEntry : given.defaultEntry <;>
    simp [bind, Except.bind, defaultEntry]

end ReleasePicker.Command
