import ReleasePicker.Diff.Changes

/-!
How a text is cut into the lines that are compared. The lines are the text when they are joined
(`flatten_splitLines`), a plain text stays within its line (`splitLines_append_of_plain`), and
behind a line feed a new line starts (`splitLines_append_of_feed`). A carriage return alone ends a
line here and nowhere else, so the first line can be less than the first line of the file
(`head_splitLines`). What the lines are is said apart from how they are found (`LineCut`), and a
text has one such cut (`splitLines_eq_iff`).
-/
namespace ReleasePicker.Diff

open Text (breaksLine)

variable {text line : Text}

@[simp] theorem splitLines_nil : splitLines [] = [] :=
  rfl

theorem flatten_splitLines (text : Text) : (splitLines text).flatten = text := by
  fun_induction splitLines text with
  | case1 => rfl
  | case2 rest ih => simp [ih]
  | case3 c rest _ breaks ih => simp [ih]
  | case4 c rest _ _ none ih =>
    rw [none] at ih
    simpa using ih
  | case5 c rest _ _ line more some ih =>
    rw [some] at ih
    simpa using ih

theorem splitLines_eq_nil_iff : splitLines text = [] ↔ text = [] := by
  constructor
  · intro none
    rw [← flatten_splitLines text, none, List.flatten_nil]
  · rintro rfl
    rfl

/-- A plain character belongs to the line that starts behind it. -/
theorem splitLines_cons {c : Char} (plain : breaksLine c = false)
    (starts : splitLines rest = line :: more) :
    splitLines (c :: rest) = (c :: line) :: more := by
  rw [splitLines.eq_def]
  split
  · rename_i none
    cases none
  · rename_i _ feed
    cases feed
    cases plain
  · rename_i _ same
    cases same
    simp [plain, starts]

theorem splitLines_single {c : Char} (plain : breaksLine c = false) : splitLines [c] = [[c]] := by
  simp [splitLines, plain]

theorem splitLines_break {c : Char} (breaks : breaksLine c = true)
    (alone : c = '\r' → rest.head? ≠ some '\n') :
    splitLines (c :: rest) = [c] :: splitLines rest := by
  rw [splitLines, if_pos breaks]
  rintro more rfl rfl
  exact alone rfl rfl

/-- A text without line breaks stays within its line. -/
theorem splitLines_append_of_plain (plain : ∀ c ∈ line, breaksLine c = false)
    (starts : splitLines text = first :: more) :
    splitLines (line ++ text) = (line ++ first) :: more := by
  induction line with
  | nil => exact starts
  | cons c line ih =>
    have shorter := ih fun other member => plain other (by simp [member])
    exact splitLines_cons (plain c (by simp)) shorter

theorem splitLines_of_plain (plain : ∀ c ∈ line, breaksLine c = false) (written : line ≠ []) :
    splitLines line = [line] := by
  induction line with
  | nil => exact absurd rfl written
  | cons c line ih =>
    have first := plain c (by simp)
    cases line with
    | nil => exact splitLines_single first
    | cons d line =>
      have rest := ih (fun other member => plain other (List.mem_cons_of_mem c member)) (by simp)
      exact splitLines_cons first rest

theorem ended_tail {c last : Char} (ended : c :: text = [] ∨ (c :: text).getLast? = some last) :
    text = [] ∧ c = last ∨ text ≠ [] ∧ text.getLast? = some last := by
  cases text with
  | nil => exact .inl ⟨rfl, by simpa using ended⟩
  | cons d text => exact .inr ⟨by simp, by simpa using ended⟩

/-- Behind a line feed a new line starts. -/
theorem splitLines_append_of_feed (ended : text = [] ∨ text.getLast? = some '\n') (rest : Text) :
    splitLines (text ++ rest) = splitLines text ++ splitLines rest := by
  fun_induction splitLines text with
  | case1 => rfl
  | case2 more ih =>
    have below : more = [] ∨ more.getLast? = some '\n' := by
      cases more with
      | nil => exact .inl rfl
      | cons c more => exact .inr (by simpa using ended)
    rw [List.cons_append, List.cons_append, splitLines, ih below, List.cons_append]
  | case3 c more notFeed breaks ih =>
    rcases ended_tail ended with ⟨rfl, rfl⟩ | ⟨filled, ended⟩
    · rfl
    · have alone : c = '\r' → (more ++ rest).head? ≠ some '\n' := by
        intro carriage feed
        obtain ⟨d, below, rfl⟩ := List.exists_cons_of_ne_nil filled
        cases feed
        exact notFeed below carriage rfl
      rw [List.cons_append, splitLines_break breaks alone, ih (.inr ended), List.cons_append]
  | case4 c more _ plain none ih =>
    obtain rfl := splitLines_eq_nil_iff.mp none
    rcases ended_tail ended with ⟨-, rfl⟩ | ⟨filled, -⟩
    · exact absurd rfl plain
    · exact absurd rfl filled
  | case5 c more _ plain line below some ih =>
    rcases ended_tail ended with ⟨rfl, rfl⟩ | ⟨-, ended⟩
    · exact absurd rfl plain
    · have starts := ih (.inr ended)
      rw [some] at starts
      exact splitLines_cons (by simpa using plain) starts

/-- The first line is that of the file, or ends with a carriage return. -/
theorem head_splitLines (known : (splitLines text).head? = some line) :
    line.getLast? = some '\r' ∨ (Text.lines text).head? = some line := by
  fun_induction splitLines text generalizing line with
  | case1 => cases known
  | case2 more ih =>
    cases known
    exact .inr (by simp [Text.lines])
  | case3 c more _ breaks ih =>
    cases known
    rcases (by simpa [breaksLine] using breaks : c = '\n' ∨ c = '\r') with rfl | rfl
    · exact .inr (by simp [Text.lines])
    · exact .inl rfl
  | case4 c more _ plain none ih =>
    cases known
    obtain rfl := splitLines_eq_nil_iff.mp none
    have other : c ≠ '\n' := by
      rintro rfl
      exact plain rfl
    exact .inr (by simp [Text.lines, other])
  | case5 c more _ plain first below some ih =>
    cases known
    have other : c ≠ '\n' := by
      rintro rfl
      exact plain rfl
    rcases ih (by rw [some]; rfl) with carriage | same
    · refine .inl ?_
      cases first with
      | nil => cases carriage
      | cons d first => simpa using carriage
    · obtain ⟨lines, same⟩ := List.head?_eq_some_iff.mp same
      exact .inr (by simp [Text.lines, other, same])

/-! ## The grammar of the lines -/

/-- What ends a line that is compared: a line feed, a carriage return and a line feed, or a carriage
return alone. -/
inductive IsTerminator : Text → Prop where
  | feed : IsTerminator ['\n']
  | both : IsTerminator ['\r', '\n']
  | carriage : IsTerminator ['\r']

/-- Lines as they are compared: plain up to their terminators, all of them terminated, but the last
one may lack its terminator if there is something on it. A carriage return and the line feed behind
it are one terminator. -/
inductive LineCut : List Text → Prop where
  | nil : LineCut []
  | last (written : body ≠ []) (plain : ∀ c ∈ body, breaksLine c = false) : LineCut [body]
  | cons (plain : ∀ c ∈ body, breaksLine c = false) (ends : IsTerminator ending)
      (whole : ending = ['\r'] → rest.flatten.head? ≠ some '\n') (below : LineCut rest) :
      LineCut ((body ++ ending) :: rest)

theorem LineCut.blank (ends : IsTerminator ending)
    (whole : ending = ['\r'] → rest.flatten.head? ≠ some '\n') (below : LineCut rest) :
    LineCut (ending :: rest) := by
  have plain : ∀ c ∈ ([] : Text), breaksLine c = false := by simp
  exact .cons plain ends whole below

/-- The lines of a text are a cut of it. -/
theorem lineCut_splitLines (text : Text) : LineCut (splitLines text) := by
  fun_induction splitLines text with
  | case1 => exact .nil
  | case2 rest ih => exact .blank .both (by simp) ih
  | case3 c rest notFeed breaks ih =>
    rcases (by simpa [breaksLine] using breaks : c = '\n' ∨ c = '\r') with rfl | rfl
    · exact .blank .feed (by simp) ih
    · refine .blank .carriage (fun _ feed => ?_) ih
      rw [flatten_splitLines] at feed
      obtain ⟨below, rfl⟩ := List.head?_eq_some_iff.mp feed
      exact notFeed below rfl rfl
  | case4 c rest _ plain none ih =>
    exact .last (by simp) (by simpa using plain)
  | case5 c rest _ plain line more some ih =>
    -- The character joins the line that starts behind it.
    have plain : breaksLine c = false := by simpa using plain
    rw [some] at ih
    cases ih with
    | last written lineIsPlain => exact .last (by simp) (by simpa [plain] using lineIsPlain)
    | @cons body _ _ lineIsPlain ends whole below =>
      have longer : ∀ d ∈ c :: body, breaksLine d = false := by simpa [plain] using lineIsPlain
      exact .cons longer ends whole below

theorem splitLines_terminator (ends : IsTerminator ending)
    (whole : ending = ['\r'] → rest.head? ≠ some '\n') :
    splitLines (ending ++ rest) = ending :: splitLines rest := by
  cases ends with
  | feed => rfl
  | both => rfl
  | carriage => exact splitLines_break rfl fun _ => whole rfl

/-- Lines that were joined are cut again where they were joined. -/
theorem splitLines_flatten (cut : LineCut pieces) : splitLines pieces.flatten = pieces := by
  induction cut with
  | nil => rfl
  | last written plain => simpa using splitLines_of_plain plain written
  | cons plain ends whole _ ih =>
    rw [List.flatten_cons, List.append_assoc,
      splitLines_append_of_plain plain (splitLines_terminator ends whole), ih]

/-- The lines of a text are its one cut into lines. -/
theorem splitLines_eq_iff {pieces : List Text} :
    splitLines text = pieces ↔ LineCut pieces ∧ pieces.flatten = text := by
  constructor
  · rintro rfl
    exact ⟨lineCut_splitLines text, flatten_splitLines text⟩
  · rintro ⟨cut, rfl⟩
    exact splitLines_flatten cut

/-- A carriage return ends a line by itself where no line feed follows it. -/
example : splitLines "a\r\r\nb".toList = ["a\r".toList, "\r\n".toList, "b".toList] := by
  decide

end ReleasePicker.Diff
