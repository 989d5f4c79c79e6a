import ReleasePicker.Options.Revision
import ReleasePicker.Proofs.Options.Layouts
import ReleasePicker.Proofs.Utf8

/-!
A revision gives the layout other entries and prints it again (`replaceEntries_eq_ok_iff`). The
changed layout keeps to the line grammar, so the revised content has exactly this layout, and what
was written can be read back with everything around it in place.
-/
namespace ReleasePicker.Options

open Text (breaksLine Terminated)

/-! ## What a revision does -/

/-- The entry line that a layout writes for a value. -/
def Layout.newEntry (layout : Layout) (value : Text) : EntryLine :=
  ⟨layout.entryIndent, value, [], some layout.key.newline⟩

/-- The layout with entry lines for other values. -/
def Layout.withEntries (layout : Layout) (values : List Text) : Layout :=
  { layout with entries := values.map layout.newEntry }

/-- The revision that writes other values. -/
def Layout.revision (layout : Layout) (values : List Text) : Revision where
  content := (layout.withEntries values).render
  previous := layout.block
  entriesWritten := values.length
  changed := (layout.withEntries values).render != layout.render

/-- Rendering stops at the first value that is not on one line. -/
theorem renderEntries_eq (indent newline : Text) (values : List Text) :
    renderEntries indent newline values =
      match values.find? (·.any breaksLine) with
      | some value => .error (.invalidEntry value multilineReason)
      | none => .ok (values.flatMap fun value => formatEntry indent value ++ newline) := by
  induction values with
  | nil => rfl
  | cons value rest ih =>
    rw [renderEntries]
    by_cases broken : value.any breaksLine = true
    · rw [if_pos broken, List.find?_cons, broken]
    · simp only [ih, List.find?_cons, broken]
      cases rest.find? (·.any breaksLine) <;> simp [Except.map]

theorem Layout.body_withEntries (layout : Layout) (values : List Text) :
    (layout.withEntries values).body =
      values.flatMap fun value =>
        formatEntry layout.entryIndent value ++ layout.key.newline.text := by
  simp [Layout.withEntries, Layout.body, List.flatMap_map, Layout.newEntry, EntryLine.render]

/-- A revision case by case: a missing block first, then the first value that is not on one line,
then the layout with other entries. -/
theorem replaceEntries_eq (content : Text) (values : List Text) :
    replaceEntries content values =
      match Layout.ofContent? content with
      | none => .error .blockNotFound
      | some layout =>
        match values.find? (·.any breaksLine) with
        | some value => .error (.invalidEntry value multilineReason)
        | none => .ok (layout.revision values) := by
  unfold replaceEntries
  cases found : Layout.ofContent? content with
  | none => rfl
  | some layout =>
    obtain ⟨-, rfl⟩ := Layout.ofContent?_eq_some_iff.mp found
    dsimp only
    rw [renderEntries_eq]
    cases values.find? (·.any breaksLine) with
    | some value => rfl
    | none =>
      simp only [Except.map, ← Layout.body_withEntries]
      rfl

theorem find?_breaksLine_eq_none_iff {values : List Text} :
    values.find? (·.any breaksLine) = none ↔ ∀ value ∈ values, OneLine value := by
  simp only [List.find?_eq_none, Bool.not_eq_true, any_breaksLine_eq_false_iff]

/-- A revision succeeds on a content with a block and with values on one line each. -/
theorem replaceEntries_eq_ok_iff {content : Text} {values : List Text} {revision : Revision} :
    replaceEntries content values = .ok revision ↔
      ∃ layout, Layout.ofContent? content = some layout ∧ (∀ value ∈ values, OneLine value) ∧
        revision = layout.revision values := by
  rw [replaceEntries_eq, ← find?_breaksLine_eq_none_iff]
  cases Layout.ofContent? content with
  | none => simp
  | some layout =>
    cases values.find? (·.any breaksLine) with
    | some value => simp
    | none => simp [eq_comm]

/-! ## The changed layout keeps to the grammar -/

theorem blank_append (first : Blank left) (second : Blank right) : Blank (left ++ right) := by
  intro c member
  rcases List.mem_append.mp member with member | member
  · exact first c member
  · exact second c member

theorem oneLine_of_blank (blank : Blank text) : OneLine text := by
  intro c member
  rcases blank c member with rfl | rfl <;> decide

theorem oneLine_double (oneLine : OneLine value) : OneLine (double value) := by
  induction value with
  | nil => simp [double, OneLine]
  | cons c rest ih =>
    have shorter := ih fun d member => oneLine d (by simp [member])
    have first := oneLine c (by simp)
    simp only [double]
    split <;> simpa [OneLine, first] using shorter

theorem OneLine.append (first : OneLine left) (second : OneLine right) :
    OneLine (left ++ right) := by
  intro c member
  rcases List.mem_append.mp member with member | member
  · exact first c member
  · exact second c member

theorem OneLine.feed_not_mem (oneLine : OneLine text) : '\n' ∉ text :=
  fun member => (oneLine _ member).1 rfl

theorem Newline.terminated {line : Text} (newline : Newline) (feedless : '\n' ∉ line) :
    Terminated (line ++ newline.text) := by
  cases newline with
  | lf => exact ⟨line, feedless, rfl⟩
  | crlf => exact ⟨line ++ ['\r'], by simpa using feedless, by simp [Newline.text]⟩

theorem KeyLine.terminated_render {key : KeyLine} (sound : key.Sound) : Terminated key.render := by
  have word : OneLine keyword := by decide
  have oneLine := ((oneLine_of_blank sound.1).append word).append (oneLine_of_blank sound.2)
  exact key.newline.terminated oneLine.feed_not_mem

/-- An entry line without its terminator is on one line. -/
theorem EntryLine.Sound.oneLine {entry : EntryLine} (sound : entry.Sound) :
    OneLine (formatEntry entry.indent entry.value ++ entry.tail) := by
  obtain ⟨-, blank, oneLine, tailBlank⟩ := sound
  have dash : OneLine ['-', ' ', '\''] := by decide
  have quote : OneLine ['\''] := by decide
  exact ((((oneLine_of_blank blank).append dash).append (oneLine_double oneLine)).append
    quote).append (oneLine_of_blank tailBlank)

theorem EntryLine.terminated_render {entry : EntryLine} {newline : Newline} (sound : entry.Sound)
    (ended : entry.newline = some newline) : Terminated entry.render := by
  rw [EntryLine.render, ended]
  exact newline.terminated sound.oneLine.feed_not_mem

/-- The indentation of new entries is an indentation. -/
theorem Layout.Sound.entryIndent {layout : Layout} (sound : layout.Sound) :
    layout.entryIndent ≠ [] ∧ Blank layout.entryIndent := by
  unfold Layout.entryIndent
  split
  · exact ⟨by simp, blank_append sound.key.1 (by simp [Blank])⟩
  · rename_i first rest run
    have firstSound := sound.entries first (by simp [run])
    exact ⟨firstSound.1, firstSound.2.1⟩

theorem Layout.Sound.newEntry {layout : Layout} (sound : layout.Sound) (oneLine : OneLine value) :
    (layout.newEntry value).Sound :=
  ⟨sound.entryIndent.1, sound.entryIndent.2, oneLine, by simp [Layout.newEntry, Blank]⟩

/-- New entries break no other line: the lines above were terminated and stay so, the new lines are
terminated, and the line below the block was no entry line and is none now. -/
theorem Layout.Sound.withEntries {layout : Layout} (sound : layout.Sound)
    (oneLine : ∀ value ∈ values, OneLine value) : (layout.withEntries values).Sound where
  cut := by
    have above := sound.cut.terminated (by simp)
    have below := sound.cut_below.right (layout.entries.map EntryLine.render)
    refine .append above (.cons (KeyLine.terminated_render sound.key) (.append ?_ below))
    intro line member
    obtain ⟨entry, written, rfl⟩ := List.mem_map.mp member
    obtain ⟨value, given, rfl⟩ := List.mem_map.mp written
    exact EntryLine.terminated_render (sound.newEntry (oneLine value given)) rfl
  above := sound.above
  key := sound.key
  entries := by
    intro entry written
    obtain ⟨value, given, rfl⟩ := List.mem_map.mp written
    exact sound.newEntry (oneLine value given)
  stop := sound.stop

/-- The layout of a revised content is the layout with the new entries. -/
theorem ofContent?_of_replaceEntries {layout : Layout}
    (found : Layout.ofContent? content = some layout) (oneLine : ∀ value ∈ values, OneLine value) :
    Layout.ofContent? (layout.revision values).content = some (layout.withEntries values) :=
  Layout.ofContent?_eq_some_iff.mpr
    ⟨(Layout.ofContent?_eq_some_iff.mp found).1.withEntries oneLine, rfl⟩

/-! ## Reading back -/

@[simp] theorem Layout.values_withEntries (layout : Layout) (values : List Text) :
    (layout.withEntries values).entries.map EntryLine.value = values := by
  simp [Layout.withEntries, Layout.newEntry, Function.comp_def]

theorem Layout.entryIndent_withEntries (layout : Layout) (values : List Text) :
    (layout.withEntries values).entryIndent =
      if values = [] then layout.key.indent ++ [' ', ' '] else layout.entryIndent := by
  cases values <;> rfl

/-- The bytes outside the entry lines, as the block of a layout bounds them. -/
theorem Layout.outside (layout : Layout) :
    (Utf8.encode layout.render).take layout.block.span.start = Utf8.encode layout.head ∧
      (Utf8.encode layout.render).drop layout.block.span.stop = Utf8.encode layout.foot := by
  constructor
  · rw [Layout.render, List.append_assoc]
    exact Utf8.take_encode _ _
  · have stop : layout.block.span.stop = Text.byteLength (layout.head ++ layout.body) := by
      simp [Layout.block]
    rw [stop, Layout.render, Utf8.drop_encode]

/-- **What is written is read back.** A revised content has a block with exactly the entries that
were written, on the same line, with the same terminator and from the same offset on. All bytes in
front of its entry lines and behind them are the bytes that were there before. New entries keep to
the indentation of the old ones; a block left empty is indented by its key line. -/
theorem findBlock?_revision {content : Text} {values : List Text} {revision : Revision}
    (replaced : replaceEntries content values = .ok revision) :
    findBlock? content = some revision.previous ∧
      ∃ keyLine keyIndent, (Text.lines content)[revision.previous.line - 1]? = some keyLine ∧
        IsKeyLine keyIndent revision.previous.newline keyLine ∧
        ∃ block, findBlock? revision.content = some block ∧
          block.entries = values ∧
          block.line = revision.previous.line ∧
          block.newline = revision.previous.newline ∧
          block.span.start = revision.previous.span.start ∧
          (Utf8.encode revision.content).take block.span.start =
            (Utf8.encode content).take revision.previous.span.start ∧
          (Utf8.encode revision.content).drop block.span.stop =
            (Utf8.encode content).drop revision.previous.span.stop ∧
          block.entryIndent =
            if values = [] then keyIndent ++ [' ', ' '] else revision.previous.entryIndent := by
  obtain ⟨layout, found, oneLine, rfl⟩ := replaceEntries_eq_ok_iff.mp replaced
  obtain ⟨sound, rfl⟩ := Layout.ofContent?_eq_some_iff.mp found
  have keyLine : (Text.lines layout.render)[layout.before.length]? = some layout.key.render := by
    rw [← Layout.flatten_lines, Text.lines_flatten sound.cut]
    simp [Layout.lines]
  have isKeyLine := isKeyLine_iff.mpr ⟨layout.key, KeyLine.ofLine?_render sound.key, rfl, rfl⟩
  have previous : findBlock? layout.render = some layout.block := by
    rw [findBlock?, found, Option.map_some]
  have revised : findBlock? (layout.revision values).content =
      some (layout.withEntries values).block := by
    rw [findBlock?, ofContent?_of_replaceEntries found oneLine, Option.map_some]
  have before := layout.outside
  have after := (layout.withEntries values).outside
  exact ⟨previous, layout.key.render, layout.key.indent, keyLine, isKeyLine, _, revised,
    layout.values_withEntries values, rfl, rfl, rfl, after.1.trans before.1.symm,
    after.2.trans before.2.symm, layout.entryIndent_withEntries values⟩

/-- Carriage returns, a tab, runs of quotes, an empty value, and no line feed at the end. -/
theorem findBlock?_revision_quotes :
    ∃ revision block, replaceEntries "a\r\n\toptions: \r\n\t - 'x'''\t".toList
        ["''".toList, [], "it's'".toList] = .ok revision ∧
      findBlock? revision.content = some block ∧
      block.entries = ["''".toList, [], "it's'".toList] ∧ block.entryIndent = ['\t', ' '] := by
  obtain ⟨-, _, _, -, -, block, read, entries, -, -, -, -, -, indent⟩ :=
    @findBlock?_revision "a\r\n\toptions: \r\n\t - 'x'''\t".toList
      ["''".toList, [], "it's'".toList] _ rfl
  exact ⟨_, block, rfl, read, entries, indent⟩

end ReleasePicker.Options
