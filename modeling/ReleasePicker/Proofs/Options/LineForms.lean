import ReleasePicker.Options.Grammar
import ReleasePicker.Proofs.Lines
import Mathlib.Data.List.TakeWhile

/-!
The readers of single lines accept what the line grammar says, and what they take apart is the
line again when it is put together. A closing quote is found where the grammar has it because a
quoted text holds its quotes in pairs only.
-/
namespace ReleasePicker.Options

open Text (breaksLine isIndent)

@[simp] theorem isIndent_iff {c : Char} : isIndent c = true ↔ c = ' ' ∨ c = '\t' := by
  simp [isIndent]

theorem breaksLine_eq_false_iff {c : Char} : breaksLine c = false ↔ c ≠ '\n' ∧ c ≠ '\r' := by
  simp [breaksLine]

theorem any_breaksLine_eq_false_iff {text : Text} :
    text.any breaksLine = false ↔ OneLine text := by
  simp only [List.any_eq_false, Bool.not_eq_true, breaksLine_eq_false_iff, OneLine]

/-! ## Blanks -/

theorem blank_takeWhile (text : Text) : Blank (text.takeWhile isIndent) :=
  fun _ member => isIndent_iff.mp (List.mem_takeWhile_imp member)

/-- Blanks are cut off where they end. -/
theorem takeWhile_blank (blank : Blank indent) (stop : ∀ c ∈ rest.head?, isIndent c = false) :
    (indent ++ rest).takeWhile isIndent = indent := by
  rw [List.takeWhile_append_of_pos fun c member => isIndent_iff.mpr (blank c member)]
  cases rest with
  | nil => simp
  | cons c rest => simp [stop c (by simp)]

theorem dropWhile_blank (blank : Blank indent) (stop : ∀ c ∈ rest.head?, isIndent c = false) :
    (indent ++ rest).dropWhile isIndent = rest := by
  rw [List.dropWhile_append_of_pos fun c member => isIndent_iff.mpr (blank c member)]
  cases rest with
  | nil => simp
  | cons c rest => simp [stop c (by simp)]

theorem newline_stops_blank (newline : Newline) :
    ∀ c ∈ newline.text.head?, isIndent c = false := by
  cases newline <;> simp [Newline.text, isIndent]

/-! ## Key lines -/

/-- A key line whose indentation and tail are what they should be. -/
def KeyLine.Sound (key : KeyLine) : Prop :=
  Blank key.indent ∧ Blank key.tail

theorem KeyLine.ofLine?_render {key : KeyLine} (sound : key.Sound) :
    KeyLine.ofLine? key.render = some key := by
  obtain ⟨indent, tail, newline⟩ := key
  have beforeKey : ∀ c ∈ (keyword ++ (tail ++ newline.text)).head?, isIndent c = false := by
    simp [keyword, isIndent]
  have cut : afterKeyword? (keyword ++ (tail ++ newline.text)) = some (tail ++ newline.text) := by
    simp [afterKeyword?, keyword]
  simp only [KeyLine.render, KeyLine.ofLine?, List.append_assoc]
  rw [takeWhile_blank sound.1 beforeKey, dropWhile_blank sound.1 beforeKey, cut]
  simp only [Option.bind_eq_bind, Option.bind_some]
  rw [takeWhile_blank sound.2 (newline_stops_blank newline),
    dropWhile_blank sound.2 (newline_stops_blank newline), Newline.ofText?_text]
  rfl

theorem KeyLine.eq_render_of_ofLine? {line : Text} {key : KeyLine}
    (read : KeyLine.ofLine? line = some key) : key.Sound ∧ line = key.render := by
  simp only [KeyLine.ofLine?, afterKeyword?, Option.bind_eq_bind, Option.bind_eq_some_iff] at read
  obtain ⟨rest, keyed, newline, ended, made⟩ := read
  cases made
  refine ⟨⟨blank_takeWhile _, blank_takeWhile _⟩, ?_⟩
  split at keyed
  · rename_i starts
    cases keyed
    obtain ⟨more, whole⟩ := List.isPrefixOf_iff_prefix.mp starts
    have tail := Newline.ofText?_eq_some ended
    rw [← whole, List.drop_left] at tail ⊢
    simp only [KeyLine.render, List.append_assoc, ← tail, List.takeWhile_append_dropWhile, whole]
  · cases keyed

/-- The reader of key lines accepts exactly the key lines. -/
theorem KeyLine.ofLine?_eq_some_iff {line : Text} {key : KeyLine} :
    KeyLine.ofLine? line = some key ↔ key.Sound ∧ line = key.render :=
  ⟨eq_render_of_ofLine?, fun ⟨sound, whole⟩ => whole ▸ ofLine?_render sound⟩

/-- Key lines as the line grammar has them. -/
theorem isKeyLine_iff {indent : Text} {newline : Newline} {line : Text} :
    IsKeyLine indent newline line ↔
      ∃ key, KeyLine.ofLine? line = some key ∧ key.indent = indent ∧ key.newline = newline := by
  constructor
  · rintro ⟨tail, blank, tailBlank, rfl⟩
    exact ⟨⟨indent, tail, newline⟩,
      KeyLine.ofLine?_eq_some_iff.mpr ⟨⟨blank, tailBlank⟩, rfl⟩, rfl, rfl⟩
  · rintro ⟨key, read, rfl, rfl⟩
    obtain ⟨sound, rfl⟩ := KeyLine.eq_render_of_ofLine? read
    exact ⟨key.tail, sound.1, sound.2, rfl⟩

/-! ## Quoted values -/

/-- A value without line breaks is written with every quote doubled, and nothing else is written
for it. -/
theorem writtenFor_iff {quoted value : Text} :
    WrittenFor quoted value ↔ OneLine value ∧ quoted = double value := by
  constructor
  · intro written
    induction written with
    | nil => exact ⟨by simp [OneLine], rfl⟩
    | pair _ ih => exact ⟨by simpa [OneLine] using ih.1, by simp [double, ih.2]⟩
    | plain single feed carriage _ ih =>
      exact ⟨by simpa [OneLine, feed, carriage] using ih.1, by simp [double, single, ih.2]⟩
  · rintro ⟨oneLine, rfl⟩
    induction value with
    | nil => exact .nil
    | cons c value ih =>
      have first := oneLine c (by simp)
      have rest := ih fun d member => oneLine d (by simp [member])
      simp only [double]
      split
      · rename_i quote
        exact quote ▸ .pair rest
      · rename_i single
        exact .plain single first.1 first.2 rest

/-- What is found between the quotes is written for a value, and the closing quote is a single
one. -/
theorem writtenFor_of_closeQuote {text quoted after : Text}
    (found : closeQuote text = some (quoted, after)) :
    text = quoted ++ '\'' :: after ∧ ∃ value, WrittenFor quoted value := by
  induction text using closeQuote.induct generalizing quoted with
  | case1 rest ih =>
    simp only [closeQuote, Option.map_eq_some_iff] at found
    obtain ⟨⟨inner, stop⟩, closed, made⟩ := found
    cases made
    obtain ⟨rfl, value, written⟩ := ih closed
    exact ⟨rfl, _, .pair written⟩
  | case2 rest single =>
    rw [closeQuote] at found
    · cases found
      exact ⟨rfl, _, .nil⟩
    · exact single
  | case3 c rest _ _ broken =>
    rw [closeQuote] at found <;> simp_all
  | case4 c rest notPair notQuote sameLine ih =>
    rw [closeQuote] at found
    · rw [if_neg sameLine, Option.map_eq_some_iff] at found
      obtain ⟨⟨inner, stop⟩, closed, made⟩ := found
      cases made
      obtain ⟨rfl, value, written⟩ := ih closed
      obtain ⟨feed, carriage⟩ := breaksLine_eq_false_iff.mp (by simpa using sameLine)
      exact ⟨rfl, _, .plain notQuote feed carriage written⟩
    · exact notPair
    · exact notQuote
  | case5 => cases found

/-! ## Entry lines -/

/-- An entry line whose parts are what they should be. -/
def EntryLine.Sound (entry : EntryLine) : Prop :=
  entry.indent ≠ [] ∧ Blank entry.indent ∧ OneLine entry.value ∧ Blank entry.tail

/-- The characters of an optional terminator. -/
def endingText (newline : Option Newline) : Text :=
  (newline.map Newline.text).getD []

theorem EntryLine.ending?_endingText (newline : Option Newline) :
    EntryLine.ending? (endingText newline) = some newline := by
  cases newline with
  | none => rfl
  | some newline => cases newline <;> rfl

theorem EntryLine.eq_endingText_of_ending? {text : Text} {newline : Option Newline}
    (ended : EntryLine.ending? text = some newline) : text = endingText newline := by
  unfold EntryLine.ending? at ended
  split at ended
  · cases ended; rfl
  · obtain ⟨known, read, rfl⟩ := Option.map_eq_some_iff.mp ended
    exact Newline.ofText?_eq_some read

private theorem ending_stops_blank (newline : Option Newline) :
    ∀ c ∈ (endingText newline).head?, isIndent c = false := by
  cases newline with
  | none => simp [endingText]
  | some newline => exact newline_stops_blank newline

theorem blank_single (blank : Blank tail) (single : rest.head? ≠ some '\'') :
    (tail ++ rest).head? ≠ some '\'' := by
  cases tail with
  | nil => simpa using single
  | cons c tail =>
    rcases blank c (by simp) with rfl | rfl <;> simp

theorem ending_single {newline : Option Newline} (last : newline = none → rest = []) :
    (endingText newline ++ rest).head? ≠ some '\'' := by
  rcases newline with _ | _ | _
  · simp [last rfl, endingText]
  · simp [endingText, Newline.text]
  · simp [endingText, Newline.text]

theorem EntryLine.ofLine?_render {entry : EntryLine} (sound : entry.Sound) :
    EntryLine.ofLine? entry.render = some entry := by
  obtain ⟨indent, value, tail, newline⟩ := entry
  obtain ⟨indented, blank, oneLine, tailBlank⟩ := sound
  obtain ⟨c, more, rfl⟩ := List.exists_cons_of_ne_nil indented
  have whole : EntryLine.render ⟨c :: more, value, tail, newline⟩ =
      (c :: more) ++ '-' :: ' ' :: '\'' ::
        (double value ++ '\'' :: (tail ++ endingText newline)) := by
    simp [EntryLine.render, formatEntry, endingText]
  have closed := closeQuote_double value (tail ++ endingText newline)
    (fun d member => breaksLine_eq_false_iff.mpr (oneLine d member))
    (blank_single tailBlank (by simpa using ending_single (fun _ => rfl)))
  have beforeDash : ∀ rest, ∀ d ∈ ('-' :: rest : Text).head?, isIndent d = false := by
    simp [isIndent]
  rw [whole, EntryLine.ofLine?, takeWhile_blank blank (beforeDash _),
    dropWhile_blank blank (beforeDash _)]
  simp only [Option.bind_eq_bind, closed, Option.bind_some,
    dropWhile_blank tailBlank (ending_stops_blank newline),
    takeWhile_blank tailBlank (ending_stops_blank newline), EntryLine.ending?_endingText,
    halve_double]
  rfl

theorem EntryLine.eq_render_of_ofLine? {line : Text} {entry : EntryLine}
    (read : EntryLine.ofLine? line = some entry) : entry.Sound ∧ line = entry.render := by
  unfold EntryLine.ofLine? at read
  split at read
  · rename_i c more rest indentEq restEq
    simp only [Option.bind_eq_bind, Option.bind_eq_some_iff] at read
    obtain ⟨⟨quoted, after⟩, closed, newline, ended, made⟩ := read
    cases made
    obtain ⟨rfl, value, written⟩ := writtenFor_of_closeQuote closed
    obtain ⟨oneLine, rfl⟩ := writtenFor_iff.mp written
    rw [halve_double]
    refine ⟨⟨by simp, indentEq ▸ blank_takeWhile line, oneLine, blank_takeWhile after⟩, ?_⟩
    have ending := EntryLine.eq_endingText_of_ending? ended
    calc line = line.takeWhile isIndent ++ line.dropWhile isIndent :=
          List.takeWhile_append_dropWhile.symm
      _ = (c :: more) ++ '-' :: ' ' :: '\'' :: (double value ++ '\'' ::
            (after.takeWhile isIndent ++ after.dropWhile isIndent)) := by
          rw [indentEq, restEq, List.takeWhile_append_dropWhile]
      _ = EntryLine.render ⟨c :: more, value, after.takeWhile isIndent, newline⟩ := by
          rw [ending]
          simp [EntryLine.render, formatEntry, endingText]
  · cases read

/-- The reader of entry lines accepts exactly the entry lines. -/
theorem EntryLine.ofLine?_eq_some_iff {line : Text} {entry : EntryLine} :
    EntryLine.ofLine? line = some entry ↔ entry.Sound ∧ line = entry.render :=
  ⟨eq_render_of_ofLine?, fun ⟨sound, whole⟩ => whole ▸ ofLine?_render sound⟩

/-- Entry lines as the line grammar has them. -/
theorem isEntryLine_iff {indent value line : Text} :
    IsEntryLine indent value line ↔
      ∃ entry, EntryLine.ofLine? line = some entry ∧ entry.indent = indent ∧
        entry.value = value := by
  constructor
  · rintro ⟨quoted, tail, ending, indented, blank, written, tailBlank, ended, rfl⟩
    obtain ⟨oneLine, rfl⟩ := writtenFor_iff.mp written
    obtain ⟨newline, rfl⟩ : ∃ newline, ending = endingText newline := by
      rcases ended with rfl | rfl | rfl
      · exact ⟨none, rfl⟩
      · exact ⟨some .lf, rfl⟩
      · exact ⟨some .crlf, rfl⟩
    refine ⟨⟨indent, value, tail, newline⟩, ?_, rfl, rfl⟩
    exact EntryLine.ofLine?_eq_some_iff.mpr
      ⟨⟨indented, blank, oneLine, tailBlank⟩, by simp [EntryLine.render, formatEntry, endingText]⟩
  · rintro ⟨entry, read, rfl, rfl⟩
    obtain ⟨⟨indented, blank, oneLine, tailBlank⟩, rfl⟩ := EntryLine.eq_render_of_ofLine? read
    refine ⟨double entry.value, entry.tail, endingText entry.newline, indented, blank,
      writtenFor_iff.mpr ⟨oneLine, rfl⟩, tailBlank, ?_,
      by simp [EntryLine.render, formatEntry, endingText]⟩
    rcases entry.newline with _ | _ | _ <;> simp [endingText, Newline.text]

end ReleasePicker.Options
