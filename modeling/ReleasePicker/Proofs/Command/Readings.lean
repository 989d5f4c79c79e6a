import ReleasePicker.Command.Spelling

/-!
How a command line is read part by part. Values that stand in arguments of their own are checked
late, but whatever is read afterwards checks them first. So a part comes to what it gives
(`Owes.comesTo_part`), and a line is read as what its parts give, one after the other
(`Owes.finish_parts`).
-/
namespace ReleasePicker.Command

variable {progress next : Progress} {given last : Given} {part : Part}

/-- What is given after one more gift. -/
def Given.take (given : Given) : Gift → Except Stop Given
  | .setting setting value => given.set value setting
  | .switch switch => given.turnOn switch
  | .releases value =>
    if given.releases.isSome then .error (.refused .unknownArgument)
    else match Utf8.decode? value with
      | none => .error (.refused .invalidUtf8)
      | some text => .ok { given with releases := some text }

theorem Given.releases_set {value : Bytes} {setting : Setting} {new : Given}
    (set : given.set value setting = .ok new) : new.releases = given.releases := by
  cases setting <;> simp only [Given.set] at set
  · split at set
    · cases set
    · split at set <;> cases set
      rfl
  · split at set
    · cases set
    · split at set <;> cases set
      rfl

theorem foldlM_single (next : β → α → Except ε β) (start : β) (item : α) :
    [item].foldlM next start = next start item := by
  rw [List.foldlM_cons]
  cases next start item <;> rfl

namespace Progress

/-! ## Where everything has been checked -/

/-- A reading in which everything has been checked. -/
def settled (given : Given) : Progress :=
  ⟨given, .nothing, false⟩

/-- All that has been read comes to `given` once it is checked. -/
def Owes (progress : Progress) (given : Given) : Prop :=
  progress.settle = .ok (settled given)

/-- Whether an option still waits for its value. -/
def IsAwaiting (progress : Progress) : Prop :=
  ∃ setting, progress.waiting = .setting setting none

theorem owes_settled (given : Given) : (settled given).Owes given :=
  rfl

theorem Owes.ready (owes : progress.Owes given) : progress.plainOnly = false ∧
    ¬ progress.IsAwaiting ∧ progress.hasReleases = given.releases.isSome := by
  obtain ⟨old, waiting, plainOnly⟩ := progress
  unfold Owes settle at owes
  dsimp only at owes
  split at owes
  · cases owes
    exact ⟨rfl, by simp [IsAwaiting], by simp [hasReleases]⟩
  · cases owes
  · rename_i setting value
    cases set : old.set value setting with
    | error stop => rw [set] at owes; cases owes
    | ok new =>
      rw [set] at owes
      cases owes
      exact ⟨rfl, by simp [IsAwaiting], by simp [hasReleases, Given.releases_set set]⟩
  · split at owes
    · cases owes
    · cases owes
      exact ⟨rfl, by simp [IsAwaiting], by simp [hasReleases]⟩

/-- What is checked does not depend on whether names still have a meaning. -/
theorem settle_plainOnly (progress : Progress) (plainOnly : Bool) :
    settle { progress with plainOnly := plainOnly } =
      progress.settle.map fun checked => { checked with plainOnly := plainOnly } := by
  obtain ⟨given, waiting, before⟩ := progress
  match waiting with
  | .nothing | .setting _ none => rfl
  | .setting setting (some value) =>
    simp only [settle]
    cases given.set value setting <;> rfl
  | .releases value =>
    simp only [settle]
    cases Utf8.decode? value <;> rfl

/-! ## Reading where everything can be checked -/

theorem Owes.readSwitch (owes : progress.Owes given) (switch : Switch) :
    progress.readSwitch switch = (given.turnOn switch).map settled := by
  unfold Progress.readSwitch
  rw [owes]
  change (given.turnOn switch >>= fun new => pure (settled new)) = _
  cases given.turnOn switch <;> rfl

theorem Owes.readSetting_some (owes : progress.Owes given) (setting : Setting) (value : Bytes) :
    progress.readSetting setting (some value) = (given.set value setting).map settled := by
  unfold Progress.readSetting
  rw [owes]
  change (given.set value setting >>= fun new => pure (settled new)) = _
  cases given.set value setting <;> rfl

theorem Owes.readSetting_none (owes : progress.Owes given) (setting : Setting) :
    progress.readSetting setting none = .ok ⟨given, .setting setting none, false⟩ := by
  unfold Progress.readSetting
  rw [owes]
  rfl

theorem Owes.readPlain (owes : progress.Owes given) (argument : Bytes) :
    progress.readPlain argument =
      if given.releases.isSome then .error (.refused .unknownArgument)
      else .ok ⟨given, .releases argument, false⟩ := by
  unfold Progress.readPlain
  rw [owes.ready.2.2, owes]
  cases given.releases.isSome <;> rfl

/-! ## Arguments by their form -/

/-- An argument that cannot stand alone is made of a hyphen and more. -/
theorem exists_of_not_standsAlone (together : ¬ StandsAlone argument) :
    ∃ second rest, argument = hyphen :: second :: rest := by
  unfold StandsAlone at together
  match argument with
  | [] => simp at together
  | [first] => simp_all
  | first :: second :: rest =>
    simp only [List.head?_cons, Option.some.injEq, Classical.not_imp] at together
    exact ⟨second, rest, by rw [together.1]⟩

theorem read_plain (plain : progress.plainOnly = true) :
    progress.read argument = progress.readPlain argument := by
  unfold Progress.read
  rw [if_pos plain]

theorem read_alone (names : progress.plainOnly = false) (alone : StandsAlone argument) :
    progress.read argument = progress.readValue argument := by
  unfold Progress.read
  rw [names]
  match argument, alone with
  | [], _ => rfl
  | [_], _ => rfl
  | first :: second :: rest, alone =>
    have other : first ≠ hyphen := by
      intro same
      have single := alone (congrArg some same)
      cases single
    simp only [Bool.false_eq_true, if_false, other, ne_eq, not_false_eq_true, if_true]

theorem read_letters (names : progress.plainOnly = false) (letter : first ≠ hyphen) :
    progress.read (hyphen :: first :: rest) = progress.readLetters (first :: rest) := by
  simp [Progress.read, names, letter]

theorem read_hyphens (names : progress.plainOnly = false) :
    progress.read hyphens = .ok { progress with plainOnly := true } := by
  simp [Progress.read, names, hyphens]

theorem read_long (names : progress.plainOnly = false) (named : argument ≠ []) :
    progress.read (hyphens ++ argument) = progress.readLong argument := by
  simp [Progress.read, names, hyphens, named]

/-- What stands behind a name for a value. -/
def attachedBytes : Option Bytes → Bytes
  | none => []
  | some value => equals :: value

theorem readLong_eq (plain : equals ∉ name) (attached : Option Bytes) :
    readLong (name ++ attachedBytes attached) progress =
      match longNames.lookup name with
      | none => .error (.refused .unknownArgument)
      | some (.setting setting) => progress.readSetting setting attached
      | some (.switch switch) =>
        if attached.isSome then .error (.refused .tooManyValues)
        else progress.readSwitch switch := by
  have other : ∀ byte ∈ name, decide (byte ≠ equals) = true := by
    intro byte member
    exact decide_eq_true fun same => plain (same ▸ member)
  unfold readLong
  rw [List.takeWhile_append_of_pos other, List.dropWhile_append_of_pos other]
  rcases known : longNames.lookup name with _ | _ | _ <;> cases attached <;>
    simp [attachedBytes, known]

theorem lookup_setting (setting : Setting) :
    longNames.lookup setting.name = some (.setting setting) := by
  cases setting <;> decide

theorem lookup_switch (switch : Switch) :
    longNames.lookup switch.name = some (.switch switch) := by
  cases switch <;> decide

theorem setting_name_ne_nil (setting : Setting) : setting.name ≠ [] := by
  cases setting <;> decide

theorem switch_name_ne_nil (switch : Switch) : switch.name ≠ [] := by
  cases switch <;> decide

theorem equals_not_mem_setting (setting : Setting) : equals ∉ setting.name := by
  cases setting <;> decide

theorem equals_not_mem_switch (switch : Switch) : equals ∉ switch.name := by
  cases switch <;> decide

/-! ## Parts -/

theorem settle_settled (result : Except Stop Given) :
    (result.map settled >>= settle) = result.map settled := by
  cases result <;> rfl

theorem not_isAwaiting_settled {result : Except Stop Given} (read : result.map settled = .ok next) :
    ¬ next.IsAwaiting := by
  cases result with
  | error stop => cases read
  | ok given =>
    cases read
    exact (owes_settled given).ready.2.1

/-- Reading that comes to a result once everything is checked, and that no value is missing for. -/
def ComesTo (reading : Except Stop Progress) (result : Except Stop Given) : Prop :=
  (reading >>= settle) = result.map settled ∧ ∀ next, reading = .ok next → ¬ next.IsAwaiting

theorem comesTo_settled (result : Except Stop Given) : ComesTo (result.map settled) result :=
  ⟨settle_settled result, fun _ => not_isAwaiting_settled⟩

/-- A value behind its option in the same argument. -/
theorem Owes.comesTo_attached (owes : progress.Owes given) (setting : Setting) (value : Bytes) :
    ComesTo (progress.readSetting setting (some value)) (given.set value setting) := by
  rw [owes.readSetting_some]
  exact comesTo_settled _

/-- A value behind its option in an argument of its own. -/
theorem Owes.comesTo_apart (owes : progress.Owes given) (setting : Setting)
    (alone : StandsAlone value) :
    ComesTo (progress.readSetting setting none >>= fun waiting => waiting.read value)
      (given.set value setting) := by
  rw [owes.readSetting_none]
  change ComesTo (Progress.read ⟨given, .setting setting none, false⟩ value) _
  rw [read_alone rfl alone]
  refine ⟨rfl, ?_⟩
  intro next read
  cases read
  simp [IsAwaiting]

theorem Owes.comesTo_releases (owes : progress.Owes given) (alone : StandsAlone value) :
    ComesTo (progress.read value) (given.take (.releases value)) := by
  obtain ⟨names, satisfied, -⟩ := owes.ready
  have plain : progress.readValue value = progress.readPlain value := by
    unfold readValue
    split
    · rename_i setting waits
      exact absurd ⟨setting, waits⟩ satisfied
    · rfl
  rw [read_alone names alone, plain, owes.readPlain, Given.take]
  by_cases second : given.releases.isSome = true
  · rw [if_pos second, if_pos second]
    exact ⟨rfl, by simp⟩
  · rw [if_neg second, if_neg second]
    refine ⟨?_, ?_⟩
    · change settle ⟨given, .releases value, false⟩ = _
      simp only [settle]
      cases Utf8.decode? value <;> rfl
    · intro next read
      cases read
      simp [IsAwaiting]

theorem Owes.read_named (owes : progress.Owes given) (setting : Setting)
    (attached : Option Bytes) :
    progress.read (hyphens ++ (setting.name ++ attachedBytes attached)) =
      progress.readSetting setting attached := by
  rw [read_long owes.ready.1
      (List.append_ne_nil_of_left_ne_nil (setting_name_ne_nil setting) _),
    readLong_eq (equals_not_mem_setting setting), lookup_setting]

/-- A value behind the name of its option is checked at once. -/
theorem Owes.read_equated (owes : progress.Owes given) (setting : Setting) (value : Bytes) :
    progress.read (hyphens ++ setting.name ++ equals :: value) =
      (given.set value setting).map settled := by
  have named := owes.read_named setting (some value)
  rw [attachedBytes, ← List.append_assoc] at named
  rw [named, owes.readSetting_some]

theorem Owes.comesTo_named (owes : progress.Owes given) (setting : Setting) (isApart : Bool)
    (allowed : (Part.named setting isApart value).IsAllowed) :
    ComesTo ((Part.named setting isApart value).arguments.foldlM read progress)
      (given.set value setting) := by
  cases isApart with
  | false =>
    rw [Part.arguments, List.foldlM_cons, owes.read_equated]
    simpa using comesTo_settled (given.set value setting)
  | true =>
    have named := owes.read_named setting none
    rw [attachedBytes, List.append_nil] at named
    rw [Part.arguments, List.foldlM_cons, named]
    simpa using owes.comesTo_apart setting allowed

theorem readLetters_file (rest : Bytes) : progress.readLetters (fileLetter :: rest) =
    progress.readSetting .file (match rest with
      | [] => none
      | first :: value => some (if first = equals then value else rest)) := by
  rfl

theorem readLetters_verbose (rest : Bytes) : progress.readLetters (verboseLetter :: rest) =
    progress.readSwitch .verbose >>= fun next => next.readLetters rest := by
  rfl

/-- The workflow by its letter, when all letters in front of it have been read. -/
theorem Owes.comesTo_letter (owes : progress.Owes given) (place : ValuePlace)
    (allowed : (Part.lettered isVerbose place value).IsAllowed) :
    ComesTo (progress.readLetters (fileLetter :: place.inside value) >>= fun next =>
      (place.behind value).foldlM read next) (given.set value .file) := by
  cases place with
  | apart =>
    have apart := owes.comesTo_apart .file allowed
    simpa [ValuePlace.inside, ValuePlace.behind, readLetters_file] using apart
  | equated =>
    have attached := owes.comesTo_attached .file value
    simpa [ValuePlace.inside, ValuePlace.behind, readLetters_file] using attached
  | joined =>
    obtain ⟨filled, plain⟩ := allowed
    obtain ⟨first, rest, rfl⟩ := List.exists_cons_of_ne_nil filled
    have other : first ≠ equals := fun same => plain (congrArg some same)
    have attached := owes.comesTo_attached .file (first :: rest)
    simpa [ValuePlace.inside, ValuePlace.behind, readLetters_file, other] using attached

theorem Owes.comesTo_lettered (owes : progress.Owes given) (isVerbose : Bool) (place : ValuePlace)
    (allowed : (Part.lettered isVerbose place value).IsAllowed) :
    ComesTo ((Part.lettered isVerbose place value).arguments.foldlM read progress)
      ((Part.lettered isVerbose place value).gifts.foldlM Given.take given) := by
  cases isVerbose with
  | false =>
    rw [Part.arguments, List.foldlM_cons, read_letters owes.ready.1 (by decide), Part.gifts,
      foldlM_single]
    exact owes.comesTo_letter place allowed
  | true =>
    rw [Part.arguments, List.foldlM_cons, read_letters owes.ready.1 (by decide),
      readLetters_verbose, owes.readSwitch, Part.gifts, List.foldlM_cons, Given.take]
    cases given.turnOn .verbose with
    | error stop => exact comesTo_settled (.error stop)
    | ok new =>
      have single : [Gift.setting .file value].foldlM Given.take new = new.set value .file :=
        foldlM_single _ _ _
      change ComesTo _ ([Gift.setting .file value].foldlM Given.take new)
      rw [single]
      exact (owes_settled new).comesTo_letter place allowed

/-- A part comes to what it gives. -/
theorem Owes.comesTo_part (owes : progress.Owes given) (allowed : part.IsAllowed) :
    ComesTo (part.arguments.foldlM read progress) (part.gifts.foldlM Given.take given) := by
  cases part with
  | named setting isApart value =>
    rw [Part.gifts, foldlM_single]
    exact owes.comesTo_named setting isApart allowed
  | lettered isVerbose place value => exact owes.comesTo_lettered isVerbose place allowed
  | switched switch =>
    have long : progress.readLong (switch.name ++ attachedBytes none) = _ :=
      readLong_eq (equals_not_mem_switch switch) none
    rw [attachedBytes, List.append_nil, lookup_switch] at long
    rw [Part.arguments, List.foldlM_cons, read_long owes.ready.1 (switch_name_ne_nil switch), long,
      Part.gifts, foldlM_single, Given.take]
    simpa [owes.readSwitch] using comesTo_settled (given.turnOn switch)
  | verbose =>
    rw [Part.arguments, List.foldlM_cons, read_letters owes.ready.1 (by decide),
      readLetters_verbose, owes.readSwitch, Part.gifts, foldlM_single, Given.take]
    cases given.turnOn .verbose with
    | error stop => exact comesTo_settled (.error stop)
    | ok new => exact comesTo_settled (.ok new)
  | releases value =>
    rw [Part.arguments, List.foldlM_cons, Part.gifts, foldlM_single]
    simpa using owes.comesTo_releases allowed

/-! ## Reading that cannot succeed any more -/

/-- What is given when these arguments have been read as well. -/
def finish (progress : Progress) (arguments : List Bytes) : Except Stop Given :=
  (arguments.foldlM read progress >>= settle).map Progress.given

theorem finish_append (progress : Progress) (first second : List Bytes) :
    progress.finish (first ++ second) =
      first.foldlM read progress >>= fun next => next.finish second := by
  unfold finish
  rw [List.foldlM_append]
  cases first.foldlM read progress <;> rfl

theorem finish_cons (progress : Progress) (argument : Bytes) (rest : List Bytes) :
    progress.finish (argument :: rest) =
      progress.read argument >>= fun next => next.finish rest := by
  unfold finish
  rw [List.foldlM_cons]
  cases progress.read argument <;> rfl

section

variable (unsettled : progress.settle = .error stop)

include unsettled

theorem readSwitch_ne_ok (switch : Switch) : progress.readSwitch switch ≠ .ok next := by
  unfold Progress.readSwitch
  rw [unsettled]
  nofun

theorem readSetting_ne_ok (setting : Setting) (attached : Option Bytes) :
    progress.readSetting setting attached ≠ .ok next := by
  unfold Progress.readSetting
  rw [unsettled]
  nofun

theorem readPlain_ne_ok (argument : Bytes) : progress.readPlain argument ≠ .ok next := by
  unfold Progress.readPlain
  rw [unsettled]
  cases progress.hasReleases <;> nofun

theorem readLetters_ne_ok (letter : UInt8) (rest : Bytes) :
    progress.readLetters (letter :: rest) ≠ .ok next := by
  unfold readLetters
  rcases letters.lookup letter with _ | setting | switch
  · nofun
  · exact readSetting_ne_ok unsettled _ _
  · dsimp only
    unfold Progress.readSwitch
    rw [unsettled]
    nofun

theorem readLong_ne_ok (argument : Bytes) : progress.readLong argument ≠ .ok next := by
  unfold readLong
  dsimp only
  rcases longNames.lookup _ with _ | setting | switch
  · nofun
  · exact readSetting_ne_ok unsettled _ _
  · dsimp only
    generalize Option.isSome _ = attached
    cases attached
    · exact readSwitch_ne_ok unsettled switch
    · nofun

/-- What is waiting is checked before anything else is read, except for two hyphens and for a value
that an option waits for. -/
theorem read_of_unsettled (read : progress.read argument = .ok next) :
    progress.plainOnly = false ∧
      (next = { progress with plainOnly := true } ∨
        progress.IsAwaiting ∧ StandsAlone argument) := by
  have names : progress.plainOnly = false := by
    cases plain : progress.plainOnly with
    | false => rfl
    | true =>
      rw [read_plain plain] at read
      exact absurd read (readPlain_ne_ok unsettled argument)
  refine ⟨names, ?_⟩
  by_cases alone : StandsAlone argument
  · rw [read_alone names alone, readValue] at read
    split at read
    · rename_i setting waits
      exact .inr ⟨⟨setting, waits⟩, alone⟩
    · exact absurd read (readPlain_ne_ok unsettled argument)
  · obtain ⟨second, rest, rfl⟩ := exists_of_not_standsAlone alone
    by_cases letter : second = hyphen
    · subst letter
      by_cases bare : rest = []
      · subst bare
        cases (read_hyphens names).symm.trans read
        exact .inl rfl
      · have long := (read_long names bare).symm.trans read
        exact absurd long (readLong_ne_ok unsettled rest)
    · rw [read_letters names letter] at read
      exact absurd read (readLetters_ne_ok unsettled second rest)

end

/-- Something has been read that will be refused, and no argument can still be its value. -/
def IsStuck (progress : Progress) : Prop :=
  (∃ stop, progress.settle = .error stop) ∧ (progress.IsAwaiting → progress.plainOnly = true)

theorem IsStuck.read (stuck : progress.IsStuck) (read : progress.read argument = .ok next) :
    next.IsStuck := by
  obtain ⟨⟨stop, unsettled⟩, closed⟩ := stuck
  obtain ⟨names, rfl | ⟨awaiting, -⟩⟩ := read_of_unsettled unsettled read
  · exact ⟨⟨stop, by rw [settle_plainOnly, unsettled]; rfl⟩, fun _ => rfl⟩
  · rw [closed awaiting] at names
    cases names

theorem IsStuck.finish (stuck : progress.IsStuck) (arguments : List Bytes) :
    progress.finish arguments ≠ .ok given := by
  induction arguments generalizing progress with
  | nil =>
    obtain ⟨⟨stop, unsettled⟩, -⟩ := stuck
    change progress.settle.map Progress.given ≠ _
    rw [unsettled]
    nofun
  | cons argument rest ih =>
    rw [finish_cons]
    cases read : progress.read argument with
    | error stop => nofun
    | ok next => exact ih (stuck.read read)

/-! ## Whole lines -/

/-- Reading that comes to a result has come to a state that owes it. -/
theorem ComesTo.owes (comes : ComesTo reading (.ok given)) :
    ∃ next, reading = .ok next ∧ next.Owes given := by
  cases reading with
  | error stop => cases comes.1
  | ok next => exact ⟨next, rfl, comes.1⟩

/-- Reading that goes on to an end has come to a result. -/
theorem ComesTo.taken (comes : ComesTo reading result)
    (finished : (reading >>= fun next => next.finish rest) = .ok last) :
    ∃ new, result = .ok new := by
  cases result with
  | ok new => exact ⟨new, rfl⟩
  | error stop =>
    cases reading with
    | error _ => cases finished
    | ok next =>
      have stuck : next.IsStuck :=
        ⟨⟨stop, comes.1⟩, fun awaits => absurd awaits (comes.2 next rfl)⟩
      exact absurd finished (stuck.finish rest)

/-- Behind two hyphens the releases can be anything. -/
theorem Owes.finish_ending (owes : progress.Owes given) (ending : Ending) :
    progress.finish ending.arguments = ending.gifts.foldlM Given.take given := by
  have ready := owes.ready
  have checked : settle { progress with plainOnly := true } = .ok ⟨given, .nothing, true⟩ := by
    rw [settle_plainOnly, owes]
    rfl
  cases ending with
  | nothing =>
    change progress.settle.map Progress.given = _
    rw [owes]
    rfl
  | hyphens =>
    rw [Ending.arguments, finish_cons, read_hyphens ready.1]
    change (settle { progress with plainOnly := true }).map Progress.given = _
    rw [checked]
    rfl
  | releases value =>
    have plain : Progress.read { progress with plainOnly := true } value =
        if given.releases.isSome then .error (.refused .unknownArgument)
        else .ok ⟨given, .releases value, true⟩ := by
      rw [read_plain rfl, Progress.readPlain, checked]
      change (if progress.hasReleases then _ else _) = _
      rw [ready.2.2]
      cases given.releases.isSome <;> rfl
    rw [Ending.arguments, finish_cons, read_hyphens ready.1]
    change Progress.finish { progress with plainOnly := true } [value] = _
    rw [finish_cons, plain, Ending.gifts, foldlM_single, Given.take]
    cases given.releases.isSome with
    | true => rfl
    | false =>
      change (settle ⟨given, .releases value, true⟩).map Progress.given = _
      simp only [settle]
      cases Utf8.decode? value <;> rfl

/-- Parts and an ending behind them are read with success if they can be taken one after the other,
and come to what they are taken for. -/
theorem Owes.finish_parts {parts : List Part} (owes : progress.Owes given)
    (allowed : ∀ part ∈ parts, part.IsAllowed) (ending : Ending) (last : Given) :
    progress.finish (parts.flatMap Part.arguments ++ ending.arguments) = .ok last ↔
      (parts.flatMap Part.gifts ++ ending.gifts).foldlM Given.take given = .ok last := by
  induction parts generalizing progress given with
  | nil =>
    rw [List.flatMap_nil, List.flatMap_nil, List.nil_append, List.nil_append, owes.finish_ending]
  | cons part rest ih =>
    have comes := owes.comesTo_part (allowed part (by simp))
    have below := fun other member => allowed other (List.mem_cons_of_mem part member)
    rw [List.flatMap_cons, List.append_assoc, finish_append, List.flatMap_cons, List.append_assoc,
      List.foldlM_append]
    constructor
    · intro finished
      obtain ⟨new, taken⟩ := comes.taken finished
      rw [taken] at comes ⊢
      obtain ⟨next, read, owes⟩ := comes.owes
      rw [read] at finished
      exact (ih owes below).mp finished
    · intro taken
      cases first : part.gifts.foldlM Given.take given with
      | error stop => rw [first] at taken; cases taken
      | ok new =>
        rw [first] at taken comes
        obtain ⟨next, read, owes⟩ := comes.owes
        rw [read]
        exact (ih owes below).mpr taken

end Progress

end ReleasePicker.Command
