import ReleasePicker.Options.Pattern
import ReleasePicker.Proofs.Options.Revisions

/-!
The two patterns find the block that the line readers find. A way of a match is always a way that
the line grammar knows, so where the grammar has no line there is no match. Where it has one, all
ways but one fail: blanks are followed by no blank, and a quoted value is followed by a single
quote, so giving up a repetition never helps.
-/
namespace ReleasePicker.Options

open Pattern
open Text (breaksLine isIndent Cut Terminated)

theorem ways_both (first second : Pattern) (place : Place) :
    (both first second).ways place = (first.ways place).flatMap second.ways :=
  rfl

theorem ways_either (first second : Pattern) (place : Place) :
    (either first second).ways place = first.ways place ++ second.ways place :=
  rfl

/-! ## Repetition -/

/-- A bound past the end of the text bounds nothing. -/
theorem repeated_of_le (step : Place → List Place) (enough : place.rest.length ≤ bound) :
    repeated step bound place = repeated step place.rest.length place := by
  induction bound using Nat.strong_induction_on generalizing place with
  | _ bound ih =>
    cases size : place.rest.length with
    | zero => cases bound <;> simp [repeated, size]
    | succ shorter =>
      obtain ⟨bound, rfl⟩ := Nat.exists_eq_add_one.mpr (by omega : 0 < bound)
      simp only [repeated, size]
      congr 1
      apply List.flatMap_congr
      intro next member
      have forward : next.rest.length < shorter + 1 := by
        simpa using (List.mem_filter.mp member).2
      rw [ih bound (by omega) (by omega), ih shorter (by omega) (by omega)]

/-- Repeat once more and go on, or stop. -/
theorem ways_many (body : Pattern) (place : Place) :
    (many body).ways place =
      ((body.ways place).filter fun next => next.rest.length < place.rest.length).flatMap
        (many body).ways ++ [place] := by
  have unfolded : (many body).ways place = repeated body.ways place.rest.length place := rfl
  rw [unfolded]
  cases size : place.rest.length with
  | zero => simp [repeated]
  | succ shorter =>
    simp only [repeated, size]
    congr 1
    apply List.flatMap_congr
    intro next member
    have forward : next.rest.length < shorter + 1 := by
      simpa using (List.mem_filter.mp member).2
    exact repeated_of_le _ (by omega)

theorem ways_many_step (single : body.ways place = [next])
    (forward : next.rest.length < place.rest.length) :
    (many body).ways place = (many body).ways next ++ [place] := by
  rw [ways_many, single]
  simp [forward]

theorem ways_many_stop (none : body.ways place = []) : (many body).ways place = [place] := by
  rw [ways_many, none]
  rfl

/-- What repetition reads has every property that one more repetition in front of it keeps. -/
theorem mem_ways_many {reading : Text → Prop} (none : reading [])
    (more : ∀ place next, next ∈ body.ways place →
      ∃ head, place.rest = head ++ next.rest ∧ ∀ tail, reading tail → reading (head ++ tail))
    (way : stop ∈ (many body).ways place) :
    ∃ text, place.rest = text ++ stop.rest ∧ reading text := by
  obtain ⟨size, same⟩ : ∃ size, place.rest.length = size := ⟨_, rfl⟩
  induction size using Nat.strong_induction_on generalizing place with
  | _ size ih =>
    rw [ways_many, List.mem_append, List.mem_flatMap] at way
    rcases way with ⟨next, member, way⟩ | way
    · obtain ⟨member, forward⟩ := List.mem_filter.mp member
      obtain ⟨head, whole, keeps⟩ := more place next member
      obtain ⟨tail, rest, known⟩ := ih next.rest.length (by simpa [same] using forward) way rfl
      exact ⟨head ++ tail, by rw [whole, rest, List.append_assoc], keeps tail known⟩
    · rw [List.mem_singleton.mp way]
      exact ⟨[], rfl, none⟩

/-! ## Every way is one that the line grammar knows -/

theorem mem_ways_one (way : stop ∈ (one accepts).ways place) :
    ∃ c, accepts c = true ∧ place.rest = c :: stop.rest := by
  simp only [ways] at way
  split at way
  · cases way
  · rename_i c rest whole
    split at way
    · rename_i accepted
      rw [List.mem_singleton.mp way]
      exact ⟨c, accepted, whole⟩
    · cases way

theorem mem_ways_word (way : stop ∈ (word text).ways place) : place.rest = text ++ stop.rest := by
  induction text generalizing place with
  | nil => rw [List.mem_singleton.mp way]; rfl
  | cons c text ih =>
    simp only [word, ways_both, List.mem_flatMap] at way
    obtain ⟨next, first, way⟩ := way
    obtain ⟨d, same, whole⟩ := mem_ways_one first
    rw [whole, ih way, List.cons_append, beq_iff_eq.mp same]

theorem mem_ways_blanks (way : stop ∈ blanks.ways place) :
    ∃ text, place.rest = text ++ stop.rest ∧ Blank text := by
  refine mem_ways_many (by simp [Blank]) ?_ way
  intro place next first
  obtain ⟨c, blank, whole⟩ := mem_ways_one first
  refine ⟨[c], whole, fun tail known => ?_⟩
  simpa [Blank] using ⟨isIndent_iff.mp blank, known⟩

theorem mem_ways_indentation (way : stop ∈ indentation.ways place) :
    ∃ text, place.rest = text ++ stop.rest ∧ text ≠ [] ∧ Blank text := by
  simp only [indentation, ways_both, List.mem_flatMap] at way
  obtain ⟨next, first, way⟩ := way
  obtain ⟨c, blank, whole⟩ := mem_ways_one first
  obtain ⟨text, rest, known⟩ := mem_ways_blanks way
  exact ⟨c :: text, by rw [whole, rest, List.cons_append], by simp,
    by simpa [Blank] using ⟨isIndent_iff.mp blank, known⟩⟩

theorem mem_ways_lineBreak (way : stop ∈ lineBreak.ways place) :
    ∃ newline : Newline, place.rest = newline.text ++ stop.rest := by
  simp only [lineBreak, ways_both, ways_either, List.mem_flatMap, List.mem_append] at way
  obtain ⟨next, first | first, way⟩ := way
  · obtain ⟨c, carriage, whole⟩ := mem_ways_one first
    obtain ⟨d, feed, rest⟩ := mem_ways_one way
    exact ⟨.crlf, by rw [whole, rest, beq_iff_eq.mp carriage, beq_iff_eq.mp feed]; rfl⟩
  · obtain ⟨d, feed, rest⟩ := mem_ways_one way
    rw [List.mem_singleton.mp first] at rest
    exact ⟨.lf, by rw [rest, beq_iff_eq.mp feed]; rfl⟩

theorem mem_ways_quotedValue (way : stop ∈ quotedValue.ways place) :
    ∃ quoted, place.rest = quoted ++ stop.rest ∧ ∃ value, WrittenFor quoted value := by
  refine mem_ways_many ⟨[], .nil⟩ ?_ way
  intro place next first
  rw [ways_either, List.mem_append] at first
  rcases first with first | first
  · obtain ⟨c, plain, whole⟩ := mem_ways_one first
    refine ⟨[c], whole, fun tail ⟨value, written⟩ => ⟨c :: value, ?_⟩⟩
    simp only [Bool.and_eq_true, bne_iff_ne, Bool.not_eq_true', breaksLine_eq_false_iff] at plain
    exact .plain plain.1 plain.2.1 plain.2.2 written
  · exact ⟨['\'', '\''], mem_ways_word first, fun tail ⟨value, written⟩ => ⟨_, .pair written⟩⟩

/-- The ways of a group are the ways of what is in it. -/
theorem rest_of_mem_ways_group (way : stop ∈ (group name body).ways place) :
    ∃ inner ∈ body.ways place, stop.rest = inner.rest := by
  obtain ⟨inner, member, rfl⟩ := List.mem_map.mp way
  exact ⟨inner, member, rfl⟩

theorem mem_ways_keyLine (way : stop ∈ keyLine.ways place) :
    ∃ key : KeyLine, key.Sound ∧ place.rest = key.render ++ stop.rest := by
  simp only [keyLine, ways_both, List.mem_flatMap] at way
  obtain ⟨afterIndent, first, afterWord, second, afterTail, third, way⟩ := way
  obtain ⟨inner, first, indentRest⟩ := rest_of_mem_ways_group first
  obtain ⟨stopInner, way, stopRest⟩ := rest_of_mem_ways_group way
  obtain ⟨indent, whole, blank⟩ := mem_ways_blanks first
  obtain ⟨tail, afterKeyword, tailBlank⟩ := mem_ways_blanks third
  obtain ⟨newline, ended⟩ := mem_ways_lineBreak way
  refine ⟨⟨indent, tail, newline⟩, ⟨blank, tailBlank⟩, ?_⟩
  rw [whole, ← indentRest, mem_ways_word second, afterKeyword, ended, ← stopRest]
  simp [KeyLine.render]

theorem mem_ways_entryLine (way : stop ∈ entryLine.ways place) :
    ∃ entry : EntryLine, entry.Sound ∧ place.rest = entry.render ++ stop.rest ∧
      (entry.newline = none → stop.rest = []) := by
  simp only [entryLine, closing, ways_both, ways_either, List.mem_flatMap, List.mem_append] at way
  obtain ⟨afterIndent, first, afterDash, second, afterValue, third, afterQuote, fourth, afterTail,
    fifth, way⟩ := way
  obtain ⟨indent, whole, indented, blank⟩ := mem_ways_indentation first
  obtain ⟨quoted, afterDashRest, value, written⟩ := mem_ways_quotedValue third
  obtain ⟨c, quote, afterValueRest⟩ := mem_ways_one fourth
  obtain ⟨tail, afterQuoteRest, tailBlank⟩ := mem_ways_blanks fifth
  obtain ⟨oneLine, rfl⟩ := writtenFor_iff.mp written
  obtain ⟨newline, ended, last⟩ : ∃ newline : Option Newline,
      afterTail.rest = endingText newline ++ stop.rest ∧ (newline = none → stop.rest = []) := by
    rcases way with way | way
    · obtain ⟨newline, ended⟩ := mem_ways_lineBreak way
      exact ⟨some newline, ended, by simp⟩
    · simp only [ways] at way
      split at way
      · rename_i ended
        rw [List.mem_singleton.mp way]
        exact ⟨none, by simp [endingText], fun _ => ended⟩
      · cases way
  refine ⟨⟨indent, value, tail, newline⟩, ⟨indented, blank, oneLine, tailBlank⟩, ?_, last⟩
  rw [whole, mem_ways_word second, afterDashRest, afterValueRest, afterQuoteRest, ended,
    beq_iff_eq.mp quote]
  simp [EntryLine.render, formatEntry, endingText]

/-! ## Where the grammar has a line, there is one way -/

theorem ways_word (text before rest : Text) (groups : List (Group × Text × Text)) :
    (word text).ways ⟨before, text ++ rest, groups⟩ = [⟨before ++ text, rest, groups⟩] := by
  induction text generalizing before with
  | nil => simp [word, ways]
  | cons c text ih =>
    simp only [word, ways_both]
    simp [ways, ih]

theorem ways_lineBreak (newline : Newline) (before rest : Text)
    (groups : List (Group × Text × Text)) :
    lineBreak.ways ⟨before, newline.text ++ rest, groups⟩ =
      [⟨before ++ newline.text, rest, groups⟩] := by
  cases newline <;> simp [lineBreak, ways, Newline.text]

/-- If what comes next fails at every blank, the blanks are read to their end. -/
theorem flatMap_ways_blanks {next : Place → List Place} (blank : Blank text)
    (stop : ∀ c ∈ rest.head?, isIndent c = false)
    (fails : ∀ place : Place, (∃ c ∈ place.rest.head?, isIndent c = true) → next place = [])
    (before : Text) (groups : List (Group × Text × Text)) :
    (blanks.ways ⟨before, text ++ rest, groups⟩).flatMap next =
      next ⟨before ++ text, rest, groups⟩ := by
  induction text generalizing before with
  | nil =>
    have none : (one isIndent).ways ⟨before, rest, groups⟩ = [] := by
      cases rest with
      | nil => rfl
      | cons c rest => simp [ways, stop c (by simp)]
    rw [List.nil_append, blanks, ways_many_stop none]
    simp
  | cons c text ih =>
    have first := isIndent_iff.mpr (blank c (by simp))
    have single : (one isIndent).ways ⟨before, c :: (text ++ rest), groups⟩ =
        [⟨before ++ [c], text ++ rest, groups⟩] := by
      simp [ways, first]
    have more := ih (fun d member => blank d (by simp [member])) (before ++ [c])
    have short := fails ⟨before, c :: (text ++ rest), groups⟩ ⟨c, rfl, first⟩
    rw [List.cons_append, blanks, ways_many_step single (by simp), List.flatMap_append,
      ← blanks, more, List.flatMap_singleton, short]
    simp

theorem flatMap_ways_indentation {next : Place → List Place} (indented : text ≠ [])
    (blank : Blank text) (stop : ∀ c ∈ rest.head?, isIndent c = false)
    (fails : ∀ place : Place, (∃ c ∈ place.rest.head?, isIndent c = true) → next place = []) :
    (indentation.ways ⟨before, text ++ rest, groups⟩).flatMap next =
      next ⟨before ++ text, rest, groups⟩ := by
  obtain ⟨c, text, rfl⟩ := List.exists_cons_of_ne_nil indented
  have single : (one isIndent).ways ⟨before, c :: text ++ rest, groups⟩ =
      [⟨before ++ [c], text ++ rest, groups⟩] := by
    simp [ways, isIndent_iff.mpr (blank c (by simp))]
  have below : Blank text := fun d member => blank d (by simp [member])
  have more := flatMap_ways_blanks below stop fails (before ++ [c]) groups
  rw [indentation, ways_both, single, List.flatMap_singleton, more]
  simp

/-- One character or one pair of quotes of a value. -/
private def quotedStep : Pattern :=
  either (one fun c => c != '\'' && !breaksLine c) (word ['\'', '\''])

/-- A quoted value is first read to its closing quote. All other ways end at a place where it could
be read on. -/
theorem ways_quotedValue (written : WrittenFor quoted value) (single : after.head? ≠ some '\'')
    (before : Text) (groups : List (Group × Text × Text)) :
    ∃ others, quotedValue.ways ⟨before, quoted ++ '\'' :: after, groups⟩ =
        ⟨before ++ quoted, '\'' :: after, groups⟩ :: others ∧
      ∀ place ∈ others, (∃ c ∈ place.rest.head?, c ≠ '\'') ∨
        ∃ rest, place.rest = '\'' :: '\'' :: rest := by
  have unfolded : quotedValue = many quotedStep := rfl
  rw [unfolded]
  induction written generalizing before with
  | nil =>
    have none : quotedStep.ways ⟨before, '\'' :: after, groups⟩ = [] := by
      cases after with
      | nil => simp [quotedStep, ways, word]
      | cons c after =>
        have other : c ≠ '\'' := by simpa using single
        simp [quotedStep, ways, word, other]
    exact ⟨[], by simp [ways_many_stop none], by simp⟩
  | @pair quoted value _ ih =>
    have step : quotedStep.ways ⟨before, '\'' :: '\'' :: (quoted ++ '\'' :: after), groups⟩ =
        [⟨before ++ ['\'', '\''], quoted ++ '\'' :: after, groups⟩] := by
      simp [quotedStep, ways, word]
    obtain ⟨others, more, unclosed⟩ := ih (before ++ ['\'', '\''])
    refine ⟨others ++ [⟨before, '\'' :: '\'' :: (quoted ++ '\'' :: after), groups⟩], ?_, ?_⟩
    · have shorter : (quoted ++ '\'' :: after).length <
          ('\'' :: '\'' :: (quoted ++ '\'' :: after)).length := by
        simp only [List.length_cons]
        omega
      rw [List.cons_append, List.cons_append, ways_many_step step shorter, more]
      simp
    · intro place member
      rcases List.mem_append.mp member with member | member
      · exact unclosed place member
      · rw [List.mem_singleton.mp member]
        exact .inr ⟨_, rfl⟩
  | @plain c quoted value quote feed carriage _ ih =>
    have plain := breaksLine_eq_false_iff.mpr ⟨feed, carriage⟩
    have step : quotedStep.ways ⟨before, c :: (quoted ++ '\'' :: after), groups⟩ =
        [⟨before ++ [c], quoted ++ '\'' :: after, groups⟩] := by
      simp [quotedStep, ways, word, quote, plain]
    obtain ⟨others, more, unclosed⟩ := ih (before ++ [c])
    refine ⟨others ++ [⟨before, c :: (quoted ++ '\'' :: after), groups⟩], ?_, ?_⟩
    · rw [List.cons_append, ways_many_step step (by simp), more]
      simp
    · intro place member
      rcases List.mem_append.mp member with member | member
      · exact unclosed place member
      · rw [List.mem_singleton.mp member]
        exact .inl ⟨c, rfl, quote⟩

theorem flatMap_ways_group (name : Group) (body : Pattern) (next : Place → List Place)
    (place : Place) :
    ((group name body).ways place).flatMap next =
      (body.ways place).flatMap fun stop => next { stop with
        groups := (name, place.before, stop.before.drop place.before.length) :: stop.groups } :=
  List.flatMap_map ..

private theorem ways_one_other {place : Place} (other : ∃ d ∈ place.rest.head?, d ≠ c) :
    (one (· == c)).ways place = [] := by
  obtain ⟨before, rest, groups⟩ := place
  obtain ⟨d, first, different⟩ := other
  cases rest with
  | nil => cases first
  | cons e rest =>
    cases first
    simp [ways, different]

theorem ways_word_other {place : Place} (other : ∃ d ∈ place.rest.head?, d ≠ c) :
    (word (c :: text)).ways place = [] := by
  rw [word, ways_both, ways_one_other other, List.flatMap_nil]

theorem other_of_blank {place : Place} (solid : isIndent c = false)
    (first : ∃ d ∈ place.rest.head?, isIndent d = true) : ∃ d ∈ place.rest.head?, d ≠ c := by
  obtain ⟨d, member, blank⟩ := first
  exact ⟨d, member, fun same => by rw [same, solid] at blank; cases blank⟩

private theorem ways_lineBreak_other {place : Place}
    (other : ∃ d ∈ place.rest.head?, breaksLine d = false) : lineBreak.ways place = [] := by
  obtain ⟨d, member, plain⟩ := other
  obtain ⟨feed, carriage⟩ := breaksLine_eq_false_iff.mp plain
  have first := ways_one_other ⟨d, member, carriage⟩
  have second := ways_one_other ⟨d, member, feed⟩
  rw [lineBreak, ways_both, ways_either, first]
  simpa [ways] using second

private theorem ways_ending_other {place : Place}
    (other : ∃ d ∈ place.rest.head?, breaksLine d = false) :
    (either lineBreak textEnd).ways place = [] := by
  rw [ways_either, ways_lineBreak_other other]
  obtain ⟨d, member, -⟩ := other
  have more : place.rest ≠ [] := by rintro none; simp [none] at member
  simp [ways, more]

private theorem breaksLine_of_isIndent (blank : isIndent c = true) : breaksLine c = false := by
  rcases isIndent_iff.mp blank with rfl | rfl <;> rfl

theorem ways_ending {newline : Option Newline} (last : newline = none → rest = []) (before : Text)
    (groups : List (Group × Text × Text)) :
    (either lineBreak textEnd).ways ⟨before, endingText newline ++ rest, groups⟩ =
      [⟨before ++ endingText newline, rest, groups⟩] := by
  cases newline with
  | none =>
    rw [last rfl]
    simp [lineBreak, ways, endingText]
  | some newline =>
    have more : endingText (some newline) = newline.text := rfl
    rw [more, ways_either, ways_lineBreak]
    cases newline <;> simp [ways, Newline.text]

private theorem blanks_before_ending :
    ∀ place : Place, (∃ c ∈ place.rest.head?, isIndent c = true) →
      (either lineBreak textEnd).ways place = [] := by
  rintro place ⟨c, member, first⟩
  exact ways_ending_other ⟨c, member, breaksLine_of_isIndent first⟩

theorem ways_closing {newline : Option Newline} (blank : Blank tail)
    (last : newline = none → rest = []) (before : Text) (groups : List (Group × Text × Text)) :
    closing.ways ⟨before, '\'' :: (tail ++ (endingText newline ++ rest)), groups⟩ =
      [⟨before ++ '\'' :: (tail ++ endingText newline), rest, groups⟩] := by
  have stop : ∀ c ∈ (endingText newline ++ rest).head?, isIndent c = false := by
    rcases newline with _ | _ | _
    · simp [last rfl, endingText]
    · simp [endingText, Newline.text, isIndent]
    · simp [endingText, Newline.text, isIndent]
  have quote : (one (· == '\'')).ways ⟨before, '\'' :: (tail ++ (endingText newline ++ rest)),
      groups⟩ = [⟨before ++ ['\''], tail ++ (endingText newline ++ rest), groups⟩] := by
    simp [ways]
  rw [closing, ways_both, quote, List.flatMap_singleton, ways_both,
    flatMap_ways_blanks blank stop blanks_before_ending, ways_ending last]
  simp

/-- Where a value could be read on, the line is not closed: there is a character that is no quote,
or a pair of quotes, and neither blanks nor the end of the line follow the first of the pair. -/
theorem ways_closing_other {place : Place}
    (unclosed : (∃ c ∈ place.rest.head?, c ≠ '\'') ∨ ∃ rest, place.rest = '\'' :: '\'' :: rest) :
    closing.ways place = [] := by
  rw [closing, ways_both]
  rcases unclosed with other | ⟨more, pair⟩
  · rw [ways_one_other other, List.flatMap_nil]
  · obtain ⟨front, _, groups⟩ := place
    cases pair
    have quote : (one (· == '\'')).ways ⟨front, '\'' :: '\'' :: more, groups⟩ =
        [⟨front ++ ['\''], '\'' :: more, groups⟩] := by
      simp [ways]
    have empty : Blank [] := by simp [Blank]
    have solid : ∀ c ∈ ('\'' :: more : Text).head?, isIndent c = false := by simp [isIndent]
    have noBlank := flatMap_ways_blanks empty solid blanks_before_ending (front ++ ['\'']) groups
    rw [quote, List.flatMap_singleton, ways_both, ← List.nil_append ('\'' :: more), noBlank]
    exact ways_ending_other ⟨'\'', rfl, rfl⟩

/-- An entry line is matched in one way, whatever follows it. -/
theorem ways_entryLine {entry : EntryLine} (sound : entry.Sound)
    (last : entry.newline = none → rest = []) (before : Text)
    (groups : List (Group × Text × Text)) :
    entryLine.ways ⟨before, entry.render ++ rest, groups⟩ =
      [⟨before ++ entry.render, rest, groups⟩] := by
  obtain ⟨indent, value, tail, newline⟩ := entry
  obtain ⟨indented, blank, oneLine, tailBlank⟩ := sound
  have single : (tail ++ (endingText newline ++ rest)).head? ≠ some '\'' :=
    blank_single tailBlank (ending_single last)
  have whole : EntryLine.render ⟨indent, value, tail, newline⟩ ++ rest =
      indent ++ (['-', ' ', '\''] ++ (double value ++ '\'' ::
        (tail ++ (endingText newline ++ rest)))) := by
    simp [EntryLine.render, formatEntry, endingText]
  have dashFails : ∀ place : Place, (∃ c ∈ place.rest.head?, isIndent c = true) →
      (both (word ['-', ' ', '\'']) (both quotedValue closing)).ways place = [] := by
    intro place first
    rw [ways_both, ways_word_other (other_of_blank rfl first), List.flatMap_nil]
  obtain ⟨others, valueWays, unclosed⟩ := ways_quotedValue (writtenFor_iff.mpr ⟨oneLine, rfl⟩) single
    (before ++ indent ++ ['-', ' ', '\'']) groups
  have othersFail : others.flatMap closing.ways = [] :=
    List.flatMap_eq_nil_iff.mpr fun place member => ways_closing_other (unclosed place member)
  rw [whole, entryLine, ways_both, flatMap_ways_indentation indented blank
    (by simp [isIndent]) dashFails, ways_both, ways_word, List.flatMap_singleton, ways_both,
    valueWays, List.flatMap_cons, othersFail, List.append_nil, ways_closing tailBlank last]
  simp [EntryLine.render, formatEntry, endingText]

/-- A key line is matched in one way. -/
theorem ways_keyLine {key : KeyLine} (sound : key.Sound) (before rest : Text)
    (groups : List (Group × Text × Text)) :
    keyLine.ways ⟨before, key.render ++ rest, groups⟩ =
      [⟨before ++ key.render, rest,
        (.newline, before ++ key.indent ++ keyword ++ key.tail, key.newline.text) ::
          (.keyIndent, before, key.indent) :: groups⟩] := by
  obtain ⟨indent, tail, newline⟩ := key
  have whole : KeyLine.render ⟨indent, tail, newline⟩ ++ rest =
      indent ++ (keyword ++ (tail ++ (newline.text ++ rest))) := by
    simp [KeyLine.render]
  have wordStop : ∀ c ∈ (keyword ++ (tail ++ (newline.text ++ rest))).head?,
      isIndent c = false := by
    simp [keyword, isIndent]
  have endStop : ∀ c ∈ (newline.text ++ rest).head?, isIndent c = false := by
    cases newline <;> simp [Newline.text, isIndent]
  have wordFails : ∀ place : Place, (∃ c ∈ place.rest.head?, isIndent c = true) →
      (both (word keyword) (both blanks (group .newline lineBreak))).ways place = [] := by
    intro place first
    rw [ways_both, keyword, ways_word_other (other_of_blank rfl first), List.flatMap_nil]
  have endFails : ∀ place : Place, (∃ c ∈ place.rest.head?, isIndent c = true) →
      (group .newline lineBreak).ways place = [] := by
    rintro place ⟨c, member, first⟩
    rw [ways, ways_lineBreak_other ⟨c, member, breaksLine_of_isIndent first⟩, List.map_nil]
  rw [whole, keyLine, ways_both, flatMap_ways_group, flatMap_ways_blanks sound.1 wordStop]
  rotate_left
  · intro place first
    exact wordFails ⟨place.before, place.rest, _⟩ first
  rw [ways_both, ways_word, List.flatMap_singleton, ways_both,
    flatMap_ways_blanks sound.2 endStop endFails]
  simp [ways, ways_lineBreak, KeyLine.render]

end ReleasePicker.Options
