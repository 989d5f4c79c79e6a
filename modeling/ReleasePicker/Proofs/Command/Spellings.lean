import Mathlib
import ReleasePicker.Proofs.Command.Readings

/-!
Every command line that can be read is made of parts and an ending (`Owes.exists_spelling`). What
stands first in it is a part, unless names lose their meaning there.
-/
namespace ReleasePicker.Command

variable {progress next : Progress} {given last : Given} {part : Part}

namespace Progress

/-! ## The first part of a line -/

theorem mem_of_lookup [BEq α] [LawfulBEq α] {entries : List (α × β)}
    (found : entries.lookup key = some value) : (key, value) ∈ entries := by
  obtain ⟨before, after, rfl, -⟩ := List.lookup_eq_some_iff.mp found
  simp

theorem eq_name_of_lookup (known : longNames.lookup name = some option) :
    name = match option with
      | .setting setting => setting.name
      | .switch switch => switch.name := by
  have member := mem_of_lookup known
  simp only [longNames, List.mem_cons, Prod.mk.injEq, List.not_mem_nil, or_false] at member
  rcases member with ⟨rfl, rfl⟩ | ⟨rfl, rfl⟩ | ⟨rfl, rfl⟩ | ⟨rfl, rfl⟩ | ⟨rfl, rfl⟩ | ⟨rfl, rfl⟩ |
    ⟨rfl, rfl⟩ <;> rfl

/-- What stands behind the hyphens of a name ends at the first equals sign. -/
theorem exists_attached (argument : Bytes) : ∃ name attached, equals ∉ name ∧
    argument = name ++ attachedBytes attached := by
  have whole : argument.takeWhile (· ≠ equals) ++ argument.dropWhile (· ≠ equals) = argument :=
    List.takeWhile_append_dropWhile
  have plain : equals ∉ argument.takeWhile (· ≠ equals) := by
    intro member
    simpa using List.mem_takeWhile_imp member
  cases rest : argument.dropWhile (· ≠ equals) with
  | nil => exact ⟨_, none, plain, by rw [attachedBytes, ← rest, whole]⟩
  | cons first value =>
    have first_eq : first = equals := by
      have head := List.head?_dropWhile_not (fun byte => decide (byte ≠ equals)) argument
      rw [rest] at head
      simpa using head
    subst first_eq
    exact ⟨_, some value, plain, by rw [attachedBytes, ← rest, whole]⟩

/-- An option that waits for a value gets the next argument for it. -/
theorem Owes.exists_apart (owes : progress.Owes given) (setting : Setting) {rest : List Bytes}
    (finished : (progress.readSetting setting none >>= fun next => next.finish rest) = .ok last) :
    ∃ value more, StandsAlone value ∧ rest = value :: more := by
  have missing : settle ⟨given, .setting setting none, false⟩ =
    .error (.refused .invalidValue) := rfl
  rw [owes.readSetting_none] at finished
  change Progress.finish ⟨given, .setting setting none, false⟩ rest = .ok last at finished
  cases rest with
  | nil => cases finished
  | cons value more =>
    refine ⟨value, more, ?_, rfl⟩
    rw [finish_cons] at finished
    cases read : Progress.read ⟨given, .setting setting none, false⟩ value with
    | error stop =>
      rw [read] at finished
      cases finished
    | ok next =>
      rw [read] at finished
      obtain ⟨-, rfl | ⟨-, alone⟩⟩ := read_of_unsettled missing read
      · have stuck : IsStuck ⟨given, .setting setting none, true⟩ :=
          ⟨⟨_, rfl⟩, fun _ => rfl⟩
        exact absurd finished (stuck.finish more)
      · exact alone

/-- The letter of the workflow is followed by its value. -/
theorem Owes.exists_letter (owes : progress.Owes given) (isVerbose : Bool) {letters : Bytes}
    {rest : List Bytes}
    (finished : (progress.readLetters (fileLetter :: letters) >>= fun next => next.finish rest) =
      .ok last) :
    ∃ place value more, (Part.lettered isVerbose place value).IsAllowed ∧
      letters = place.inside value ∧ rest = place.behind value ++ more := by
  rw [readLetters_file] at finished
  match letters with
  | [] =>
    obtain ⟨value, more, alone, rfl⟩ := owes.exists_apart .file finished
    exact ⟨.apart, value, more, alone, rfl, rfl⟩
  | first :: value =>
    by_cases equated : first = equals
    · subst equated
      exact ⟨.equated, value, rest, trivial, rfl, rfl⟩
    · refine ⟨.joined, first :: value, rest, ⟨by simp, ?_⟩, rfl, rfl⟩
      simpa using equated

/-- Of the letters only those of the workflow and of the log let a reading go on. -/
theorem Owes.letter_cases (owes : progress.Owes given) {letter : UInt8} {letters : Bytes}
    {rest : List Bytes}
    (finished : (progress.readLetters (letter :: letters) >>= fun next => next.finish rest) =
      .ok last) :
    letter = fileLetter ∨ letter = verboseLetter ∧ ∃ new, given.turnOn .verbose = .ok new ∧
      ((settled new).readLetters letters >>= fun next => next.finish rest) = .ok last := by
  unfold readLetters at finished
  cases known : Command.letters.lookup letter with
  | none =>
    rw [known] at finished
    cases finished
  | some option =>
    have member := mem_of_lookup known
    simp only [Command.letters, List.mem_cons, Prod.mk.injEq, List.not_mem_nil, or_false] at member
    rw [known] at finished
    rcases member with ⟨rfl, rfl⟩ | ⟨rfl, rfl⟩ | ⟨rfl, rfl⟩ | ⟨rfl, rfl⟩
    · exact .inl rfl
    · dsimp only at finished
      rw [owes.readSwitch] at finished
      cases turn : given.turnOn .verbose with
      | error stop =>
        rw [turn] at finished
        cases finished
      | ok new =>
        rw [turn] at finished
        exact .inr ⟨rfl, new, rfl, finished⟩
    · dsimp only at finished
      rw [owes.readSwitch] at finished
      cases finished
    · dsimp only at finished
      rw [owes.readSwitch] at finished
      cases finished

theorem not_verbose_twice (turned : given.turnOn .verbose = .ok new) :
    new.turnOn .verbose ≠ .ok last := by
  unfold Given.turnOn at turned
  dsimp only at turned
  split at turned <;> cases turned
  nofun

theorem length_arguments_pos (part : Part) : 0 < part.arguments.length := by
  rcases part with ⟨_, _ | _, _⟩ | ⟨_ | _, _, _⟩ | _ | _ | _ <;> simp [Part.arguments]

/-- Letters that are read with success are those of the log, of the workflow or of both. -/
theorem Owes.exists_of_letters (owes : progress.Owes given) {letters : Bytes} {rest : List Bytes}
    (filled : letters ≠ [])
    (finished : (progress.readLetters letters >>= fun next => next.finish rest) = .ok last) :
    ∃ (part : Part) (more : List Bytes), part.IsAllowed ∧
      (hyphen :: letters) :: rest = part.arguments ++ more := by
  obtain ⟨first, letters, rfl⟩ := List.exists_cons_of_ne_nil filled
  rcases owes.letter_cases finished with rfl | ⟨rfl, new, turned, finished⟩
  · obtain ⟨place, value, more, allowed, rfl, rfl⟩ := owes.exists_letter false finished
    exact ⟨.lettered false place value, more, allowed, rfl⟩
  · match letters with
    | [] => exact ⟨.verbose, rest, trivial, rfl⟩
    | second :: letters =>
      rcases (owes_settled new).letter_cases finished with rfl | ⟨-, _, again, -⟩
      · obtain ⟨place, value, more, allowed, rfl, rfl⟩ :=
          (owes_settled new).exists_letter true finished
        exact ⟨.lettered true place value, more, allowed, rfl⟩
      · exact absurd again (not_verbose_twice turned)

/-- A name that is read with success is that of an option, with its value behind it if it takes
one. -/
theorem Owes.exists_of_name (owes : progress.Owes given) {argument : Bytes} {rest : List Bytes}
    (finished : (progress.readLong argument >>= fun next => next.finish rest) = .ok last) :
    ∃ (part : Part) (more : List Bytes), part.IsAllowed ∧
      (hyphens ++ argument) :: rest = part.arguments ++ more := by
  obtain ⟨name, attached, plain, rfl⟩ := exists_attached argument
  rw [readLong_eq plain] at finished
  cases known : longNames.lookup name with
  | none =>
    rw [known] at finished
    cases finished
  | some option =>
    have named := eq_name_of_lookup known
    rw [known] at finished
    cases option with
    | setting setting =>
      dsimp only at named finished
      subst named
      cases attached with
      | none =>
        obtain ⟨value, more, alone, rfl⟩ := owes.exists_apart setting finished
        exact ⟨.named setting true value, more, alone, by simp [Part.arguments, attachedBytes]⟩
      | some value =>
        exact ⟨.named setting false value, rest, trivial,
          by simp [Part.arguments, attachedBytes]⟩
    | switch switch =>
      dsimp only at named finished
      subst named
      cases attached with
      | none => exact ⟨.switched switch, rest, trivial, by simp [Part.arguments, attachedBytes]⟩
      | some value => cases finished

/-- What is read with success starts with a part, unless names lose their meaning there. -/
theorem Owes.exists_part (owes : progress.Owes given) {argument : Bytes} {rest : List Bytes}
    (meaningful : argument ≠ hyphens)
    (finished : progress.finish (argument :: rest) = .ok last) :
    ∃ (part : Part) (more : List Bytes), part.IsAllowed ∧
      argument :: rest = part.arguments ++ more := by
  by_cases alone : StandsAlone argument
  · exact ⟨.releases argument, rest, alone, rfl⟩
  · rw [finish_cons] at finished
    obtain ⟨second, more, rfl⟩ := exists_of_not_standsAlone alone
    by_cases letter : second = hyphen
    · subst letter
      have named : more ≠ [] := fun bare => meaningful (by rw [bare]; rfl)
      have long : progress.read (hyphens ++ more) = _ := read_long owes.ready.1 named
      exact owes.exists_of_name (long ▸ finished)
    · rw [read_letters owes.ready.1 letter] at finished
      exact owes.exists_of_letters (List.cons_ne_nil _ _) finished

/-- The releases wait to be checked, and leave no room for others. -/
theorem waits_of_readPlain (read : progress.readPlain argument = .ok next) :
    next.waiting = .releases argument ∧ next.plainOnly = progress.plainOnly := by
  unfold readPlain at read
  cases settles : progress.settle with
  | error stop =>
    rw [settles] at read
    cases given : progress.hasReleases <;> rw [given] at read <;> cases read
  | ok checked =>
    have unmoved : progress.settle = _ := settle_plainOnly progress progress.plainOnly
    rw [settles] at read unmoved
    have kept : checked.plainOnly = progress.plainOnly := by rw [Except.ok.inj unmoved]
    cases given : progress.hasReleases with
    | true => rw [given] at read; cases read
    | false =>
      rw [given] at read
      cases read
      exact ⟨rfl, kept⟩

/-- Behind two hyphens there is room for the releases and for nothing else. -/
theorem exists_ending {rest : List Bytes} (plain : progress.plainOnly = true)
    (finished : progress.finish rest = .ok last) :
    ∃ ending : Ending, ending.arguments = hyphens :: rest := by
  match rest with
  | [] => exact ⟨.hyphens, rfl⟩
  | [value] => exact ⟨.releases value, rfl⟩
  | first :: second :: more =>
    rw [finish_cons, read_plain plain] at finished
    cases read : progress.readPlain first with
    | error stop =>
      rw [read] at finished
      cases finished
    | ok next =>
      obtain ⟨waits, same⟩ := waits_of_readPlain read
      have full : next.readPlain second = .error (.refused .unknownArgument) := by
        unfold readPlain hasReleases
        rw [waits]
        simp
        rfl
      rw [read] at finished
      change next.finish (second :: more) = _ at finished
      rw [finish_cons, read_plain (same.trans plain), full] at finished
      cases finished

/-- Every line that is read with success is made of parts and an ending. -/
theorem Owes.exists_spelling (owes : progress.Owes given) {arguments : List Bytes}
    (finished : progress.finish arguments = .ok last) :
    ∃ spelling : Spelling, spelling.IsAllowed ∧ spelling.arguments = arguments := by
  -- A part takes one argument or two, so the induction is on how many arguments are left.
  induction size : arguments.length using Nat.strongRecOn generalizing arguments progress given with
  | ind count ih =>
    match arguments with
    | [] => exact ⟨⟨[], .nothing⟩, by simp [Spelling.IsAllowed], rfl⟩
    | argument :: rest =>
      by_cases meaningful : argument = hyphens
      · subst meaningful
        rw [finish_cons, read_hyphens owes.ready.1] at finished
        have plain : Progress.plainOnly { progress with plainOnly := true } = true := rfl
        obtain ⟨ending, same⟩ := exists_ending plain finished
        exact ⟨⟨[], ending⟩, by simp [Spelling.IsAllowed], same⟩
      · obtain ⟨part, more, allowed, whole⟩ := owes.exists_part meaningful finished
        rw [whole, finish_append] at finished
        have comes := owes.comesTo_part allowed
        obtain ⟨new, taken⟩ := comes.taken finished
        rw [taken] at comes
        obtain ⟨next, read, owes⟩ := comes.owes
        rw [read] at finished
        have shorter : more.length < count := by
          have length := congrArg List.length whole
          rw [size, List.length_append] at length
          have := length_arguments_pos part
          omega
        obtain ⟨⟨parts, ending⟩, below, spelled⟩ := ih _ shorter owes finished rfl
        refine ⟨⟨part :: parts, ending⟩, ?_, ?_⟩
        · simpa [Spelling.IsAllowed] using ⟨allowed, below⟩
        · rw [whole, ← spelled]
          simp [Spelling.arguments]

end Progress

end ReleasePicker.Command
