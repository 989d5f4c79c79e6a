import Mathlib.Data.List.DropRight
import ReleasePicker.Releases
import ReleasePicker.Proofs.Options.Refusals

/-!
The releases of a text, line by line. Trimming takes every terminator away with the spaces before
it, so it does not matter how a line ends, and a text is read as its parts are read one after the
other (`releases_append`). A release is what trimming leaves: reading the releases of a text from
lines of their own gives them again (`ofText_intercalate`). Of all line breaks only a carriage
return inside a line is left in a release, and this is the one reason to refuse to write it.
-/
namespace ReleasePicker

/-! ## Trimming -/

namespace Text

theorem trimEnd_append_spaces (spaces : ∀ c ∈ tail, isSpace c = true) (text : Text) :
    trimEnd (text ++ tail) = trimEnd text := by
  have backwards : ∀ c ∈ tail.reverse, isSpace c = true := by simpa using spaces
  rw [trimEnd, List.reverse_append, List.dropWhile_append_of_pos backwards]
  rfl

/-- Spaces at the end make no difference to what trimming leaves. -/
theorem trim_append_spaces (spaces : ∀ c ∈ tail, isSpace c = true) (text : Text) :
    trim (text ++ tail) = trim text := by
  rw [trim, trim, List.dropWhile_append]
  split
  · rename_i blank
    rw [List.dropWhile_eq_nil_iff.mpr spaces, List.isEmpty_iff.mp blank]
  · exact trimEnd_append_spaces spaces _

/-- Trimming leaves a part of the text. -/
theorem trim_subset (text : Text) : trim text ⊆ text := by
  have start : trim text <+: text.dropWhile isSpace := List.rdropWhile_prefix isSpace _
  exact fun c member => (List.dropWhile_suffix isSpace).subset (start.subset member)

/-- What trimming leaves has no space at either end. -/
theorem trim_trim (text : Text) : trim (trim text) = trim text := by
  have start : (trim text).dropWhile isSpace = trim text := by
    have whole : trim text <+: text.dropWhile isSpace := List.rdropWhile_prefix isSpace _
    have stop := List.head?_dropWhile_not isSpace text
    cases left : trim text with
    | nil => rfl
    | cons c rest =>
      obtain ⟨more, whole⟩ := left ▸ whole
      rw [← whole] at stop
      exact List.dropWhile_cons_of_neg (by simpa using stop)
  rw [trim, start]
  exact List.rdropWhile_idempotent isSpace _

theorem isSpace_of_mem_newline (newline : Options.Newline) :
    ∀ c ∈ newline.text, isSpace c = true := by
  have feed : isSpace '\n' = true := by decide
  have carriage : isSpace '\r' = true := by decide
  cases newline <;> simp [Options.Newline.text, feed, carriage]

/-- A line is trimmed with its terminator as it is without. -/
theorem trim_bareLine (line : Text) : trim (bareLine line) = trim line := by
  unfold bareLine
  split
  · rename_i body known
    rw [List.reverse_eq_cons_iff.mp known, List.reverse_cons, List.append_assoc]
    exact (trim_append_spaces (isSpace_of_mem_newline .crlf) _).symm
  · rename_i body _ known
    rw [List.reverse_eq_cons_iff.mp known]
    exact (trim_append_spaces (isSpace_of_mem_newline .lf) _).symm
  · rfl

/-- A line feed stands nowhere in a line but at its end. -/
theorem Cut.feed_not_mem_trim (cut : Cut pieces) : ∀ line ∈ pieces, '\n' ∉ trim line := by
  induction cut with
  | nil => simp
  | last _ feedless =>
    rintro line (_ | ⟨_, ⟨⟩⟩) member
    exact feedless (trim_subset _ member)
  | cons ended _ ih =>
    rintro line (_ | ⟨_, inside⟩)
    · obtain ⟨body, closed, rfl⟩ := ended
      have same : trim (body ++ ['\n']) = trim body :=
        trim_append_spaces (isSpace_of_mem_newline .lf) body
      exact fun member => closed (trim_subset body (same ▸ member))
    · exact ih line inside

end Text

namespace ReleaseList

open Text (Cut Terminated)
open Options

/-! ## Reading -/

theorem releases_ofItems_append (first second : List Text) :
    (ofItems (first ++ second)).releases =
      (ofItems first).releases ++ (ofItems second).releases := by
  simp [ofItems]

theorem ofItems_congr {first second : List Text}
    (same : first.map Text.trim = second.map Text.trim) : ofItems first = ofItems second := by
  rw [ofItems, ofItems, same]

/-- The releases of a text are those of its lines, terminators included. -/
theorem ofText_eq (text : Text) : ofText text = ofItems (Text.lines text) := by
  refine ofItems_congr ?_
  rw [Text.bareLines, List.map_map]
  exact List.map_congr_left fun line _ => Text.trim_bareLine line

theorem releases_terminated (ended : Terminated line) (rest : Text) :
    (ofText (line ++ rest)).releases = (ofItems [line]).releases ++ (ofText rest).releases := by
  rw [ofText_eq, ofText_eq, Text.lines_terminated ended]
  exact releases_ofItems_append [line] _

theorem releases_newline (feedless : '\n' ∉ body) (newline : Newline) (rest : Text) :
    (ofText (body ++ newline.text ++ rest)).releases =
      (ofItems [body]).releases ++ (ofText rest).releases := by
  have trimmed := Text.trim_append_spaces (Text.isSpace_of_mem_newline newline) body
  have same : ofItems [body ++ newline.text] = ofItems [body] :=
    ofItems_congr (by simpa using trimmed)
  rw [releases_terminated (newline.terminated feedless), same]

/-- A text is read as its parts are: the releases above a line break and those below it. -/
theorem releases_append (above : Text) (newline : Newline) (below : Text) :
    (ofText (above ++ newline.text ++ below)).releases =
      (ofText above).releases ++ (ofText below).releases := by
  -- The induction is on the lines above; the break ends the last of them if it is open.
  suffices step : ∀ pieces, Cut pieces →
      (ofText (pieces.flatten ++ newline.text ++ below)).releases =
        (ofItems pieces).releases ++ (ofText below).releases by
    have whole := step _ (Text.cut_lines above)
    rwa [Text.flatten_lines, ← ofText_eq] at whole
  intro pieces cut
  induction cut with
  | nil =>
    have blank : '\n' ∉ ([] : Text) := by simp
    exact releases_newline blank newline below
  | last _ feedless => simpa using releases_newline feedless newline below
  | @cons line rest ended _ ih =>
    rw [List.flatten_cons, List.append_assoc, List.append_assoc, releases_terminated ended,
      ← List.append_assoc, ih, ← List.append_assoc, ← releases_ofItems_append]
    rfl

/-! ## Releases as texts -/

theorem mem_releases_iff {text release : Text} :
    release ∈ (ofText text).releases ↔
      release ≠ [] ∧ ∃ line ∈ Text.bareLines text, Text.trim line = release := by
  simp [ofText, ofItems, and_comm]

/-- A release is on one line, up to carriage returns, and is read as itself. -/
theorem releases_release (member : release ∈ (ofText text).releases) :
    '\n' ∉ release ∧ (ofText release).releases = [release] := by
  obtain ⟨written, bare, inside, rfl⟩ := mem_releases_iff.mp member
  obtain ⟨line, stands, rfl⟩ := List.mem_map.mp inside
  rw [Text.trim_bareLine] at written ⊢
  have feedless := (Text.cut_lines text).feed_not_mem_trim line stands
  refine ⟨feedless, ?_⟩
  rw [ofText_eq, Text.lines_open written feedless]
  simp [ofItems, Text.trim_trim, written]

/-- Texts that are read as themselves are read from lines of their own in their order. -/
theorem releases_intercalate (newline : Newline)
    (alone : ∀ item ∈ items, (ofText item).releases = [item]) :
    (ofText (newline.text.intercalate items)).releases = items := by
  induction items with
  | nil => rfl
  | cons item rest ih =>
    have below := ih fun other member => alone other (by simp [member])
    cases rest with
    | nil => simpa using alone item (by simp)
    | cons next rest =>
      rw [List.intercalate_cons_cons, releases_append, alone item (by simp), below]
      rfl

/-- The releases of a text, each on a line of its own, are read again. -/
theorem ofText_intercalate (text : Text) (newline : Newline) :
    ofText (newline.text.intercalate (ofText text).releases) = ofText text :=
  congrArg ReleaseList.mk (releases_intercalate newline fun _ member => (releases_release member).2)

/-! ## Writing -/

variable {content text defaultEntry : Text}

theorem oneLine_release_iff (member : release ∈ (ofText text).releases) :
    OneLine release ↔ '\r' ∉ release := by
  have feedless := (releases_release member).1
  constructor
  · exact fun oneLine carriage => (oneLine _ carriage).2 rfl
  · intro clean c inside
    exact ⟨fun feed => feedless (feed ▸ inside), fun carriage => clean (carriage ▸ inside)⟩

/-- Behind a default entry on one line, the first release with a carriage return in it is refused,
and nothing else is. -/
theorem replaceEntries_entries_eq_error_iff (keyed : HasKeyLine content)
    (oneLine : OneLine defaultEntry) {error : RevisionError} :
    replaceEntries content ((ofText text).entries defaultEntry) = .error error ↔
      ∃ before value after, (ofText text).releases = before ++ value :: after ∧ '\r' ∈ value ∧
        (∀ other ∈ before, '\r' ∉ other) ∧ error = .invalidEntry value multilineReason := by
  rw [replaceEntries_eq_error_iff]
  constructor
  · rintro (none | @⟨before, value, after, -, order, first, broken⟩)
    · exact absurd keyed none
    · cases before with
      | nil =>
        cases order
        exact absurd oneLine broken
      | cons head before =>
        have order : (ofText text).releases = before ++ value :: after := (List.cons.inj order).2
        have given : value ∈ (ofText text).releases := by simp [order]
        have carriage := not_not.mp ((oneLine_release_iff given).not.mp broken)
        refine ⟨before, value, after, order, carriage, fun other member => ?_, rfl⟩
        have given : other ∈ (ofText text).releases := by simp [order, member]
        exact (oneLine_release_iff given).mp (first other (by simp [member]))
  · rintro ⟨before, value, after, order, carriage, first, rfl⟩
    have order' : (ofText text).entries defaultEntry = (defaultEntry :: before) ++ value :: after :=
      congrArg (defaultEntry :: ·) order
    refine .brokenEntry keyed order' ?_ fun clean => (clean _ carriage).2 rfl
    intro other member
    rcases List.mem_cons.mp member with rfl | member
    · exact oneLine
    · have given : other ∈ (ofText text).releases := by simp [order, member]
      exact (oneLine_release_iff given).mpr (first other member)

theorem exists_carriage_iff :
    (∃ release ∈ (ofText text).releases, '\r' ∈ release) ↔
      ∃ line ∈ Text.bareLines text, '\r' ∈ Text.trim line := by
  constructor
  · rintro ⟨release, member, carriage⟩
    obtain ⟨-, line, inside, rfl⟩ := mem_releases_iff.mp member
    exact ⟨line, inside, carriage⟩
  · rintro ⟨line, inside, carriage⟩
    have written := List.ne_nil_of_mem carriage
    exact ⟨_, mem_releases_iff.mpr ⟨written, line, inside, rfl⟩, carriage⟩

/-- The entries are refused exactly if a carriage return is left in a line. -/
theorem exists_invalidEntry_iff (keyed : HasKeyLine content) (oneLine : OneLine defaultEntry) :
    (∃ value reason, replaceEntries content ((ofText text).entries defaultEntry) =
        .error (.invalidEntry value reason)) ↔
      ∃ line ∈ Text.bareLines text, '\r' ∈ Text.trim line := by
  rw [← exists_carriage_iff]
  constructor
  · rintro ⟨value, reason, failed⟩
    obtain ⟨_, value, _, order, carriage, -, -⟩ :=
      (replaceEntries_entries_eq_error_iff keyed oneLine).mp failed
    exact ⟨value, by simp [order], carriage⟩
  · rintro ⟨release, member, carriage⟩
    cases replaced : replaceEntries content ((ofText text).entries defaultEntry) with
    | error error =>
      obtain ⟨_, value, _, -, -, -, rfl⟩ :=
        (replaceEntries_entries_eq_error_iff keyed oneLine).mp replaced
      exact ⟨value, _, rfl⟩
    | ok revision =>
      obtain ⟨_, -, clean, -⟩ := replaceEntries_eq_ok_iff.mp replaced
      have clean := clean release (List.mem_cons_of_mem _ member)
      exact absurd carriage ((oneLine_release_iff member).mp clean)

/-- Where no carriage return is left, one entry is written for the default and for each release. -/
theorem exists_revision_of_clean (keyed : HasKeyLine content) (oneLine : OneLine defaultEntry)
    (clean : ∀ line ∈ Text.bareLines text, '\r' ∉ Text.trim line) :
    ∃ revision, replaceEntries content ((ofText text).entries defaultEntry) = .ok revision ∧
      revision.entriesWritten = (ofText text).size + 1 := by
  cases replaced : replaceEntries content ((ofText text).entries defaultEntry) with
  | error error =>
    obtain ⟨_, value, _, -, -, -, rfl⟩ :=
      (replaceEntries_entries_eq_error_iff keyed oneLine).mp replaced
    obtain ⟨line, inside, carriage⟩ :=
      (exists_invalidEntry_iff keyed oneLine).mp ⟨value, _, replaced⟩
    exact absurd carriage (clean line inside)
  | ok revision =>
    obtain ⟨_, -, -, rfl⟩ := replaceEntries_eq_ok_iff.mp replaced
    exact ⟨_, rfl, rfl⟩

/-- **A caller's text is read line by line, and nothing in it is refused but a carriage return
inside a line.** The releases above a line break and below it are those of the two texts, whichever
terminator stands there, and the releases on lines of their own are read again. On a content with
an options block, behind a default entry on one line, the entries are refused exactly if a line has
a carriage return in it after trimming. The first release with one is named, and without one an
entry is written for the default and for every release. -/
theorem releases_line_by_line :
    (∀ (above : Text) (newline : Newline) (below : Text),
      (ofText (above ++ newline.text ++ below)).releases =
        (ofText above).releases ++ (ofText below).releases) ∧
    (∀ (text : Text) (newline : Newline),
      ofText (newline.text.intercalate (ofText text).releases) = ofText text) ∧
    ∀ (content text defaultEntry : Text) (block : Block), findBlock? content = some block →
      OneLine defaultEntry →
      ((∃ value reason, replaceEntries content ((ofText text).entries defaultEntry) =
          .error (.invalidEntry value reason)) ↔
        ∃ line ∈ Text.bareLines text, '\r' ∈ Text.trim line) ∧
      (∀ value reason, replaceEntries content ((ofText text).entries defaultEntry) =
          .error (.invalidEntry value reason) →
        ∃ before after, (ofText text).releases = before ++ value :: after ∧ '\r' ∈ value ∧
          ∀ other ∈ before, '\r' ∉ other) ∧
      ((∀ line ∈ Text.bareLines text, '\r' ∉ Text.trim line) →
        ∃ revision, replaceEntries content ((ofText text).entries defaultEntry) = .ok revision ∧
          revision.entriesWritten = (ofText text).size + 1) := by
  refine ⟨releases_append, ofText_intercalate, ?_⟩
  intro content text defaultEntry block found oneLine
  have keyed := hasKeyLine_of_found found
  refine ⟨exists_invalidEntry_iff keyed oneLine, ?_, exists_revision_of_clean keyed oneLine⟩
  intro value reason failed
  obtain ⟨before, _, after, order, carriage, first, same⟩ :=
    (replaceEntries_entries_eq_error_iff keyed oneLine).mp failed
  cases same
  exact ⟨before, after, order, carriage, first⟩

/-- An exotic space and a carriage return at the ends of lines are trimmed; inside a line, the
first carriage return is to blame. -/
theorem releases_line_by_line_carriage :
    findBlock? "options:\n".toList = some ⟨"  ".toList, .lf, [], ⟨9, 9⟩, 1⟩ ∧
      OneLine "latest".toList ∧
      ∃ value reason,
        replaceEntries "options:\n".toList
            ((ofText "\u2003a\r\r\nb\rc\nd\re".toList).entries "latest".toList) =
          .error (.invalidEntry value reason) ∧ value = "b\rc".toList := by
  have found : findBlock? "options:\n".toList = some ⟨"  ".toList, .lf, [], ⟨9, 9⟩, 1⟩ := rfl
  have oneLine : OneLine "latest".toList := by decide
  obtain ⟨-, -, writing⟩ := releases_line_by_line
  obtain ⟨refusal, -, -⟩ := writing _ "\u2003a\r\r\nb\rc\nd\re".toList _ _ found oneLine
  obtain ⟨value, reason, failed⟩ := refusal.mpr ⟨"b\rc".toList, by decide, by decide⟩
  cases failed
  exact ⟨found, oneLine, _, _, rfl, rfl⟩

end ReleaseList

end ReleasePicker
