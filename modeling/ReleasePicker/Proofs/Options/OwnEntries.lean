import ReleasePicker.Proofs.Options.Previews
import ReleasePicker.Proofs.Options.Refusals

/-!
Writing a block's own entries over them. The values that are read are on one line each, so they can
be written, and quoting a value rebuilds the text between the quotes that it was read from. What a
revision may change is therefore only what the line grammar leaves open: the indentation of an entry
line, the blanks behind its closing quote and its terminator. Lines without these freedoms are
canonical (`IsCanonical`), and a block of canonical lines is the block that stays as it is.
-/
namespace ReleasePicker.Options

/-- An entry line with the given indentation, nothing behind its closing quote and the given
terminator. -/
def IsCanonical (indent : Text) (newline : Newline) (line : Text) : Prop :=
  ∃ quoted value, WrittenFor quoted value ∧
    line = indent ++ ['-', ' ', '\''] ++ quoted ++ ['\''] ++ newline.text

variable {layout : Layout}

/-! ## One line -/

/-- The line that is written for a value is canonical. -/
theorem isCanonical_newEntry (layout : Layout) (oneLine : OneLine value) :
    IsCanonical layout.entryIndent layout.key.newline (layout.newEntry value).render :=
  ⟨double value, value, writtenFor_iff.mpr ⟨oneLine, rfl⟩,
    by simp [Layout.newEntry, EntryLine.render, formatEntry]⟩

/-- A canonical entry line is the line that is written for its own value. -/
theorem Layout.Sound.render_newEntry_iff (sound : layout.Sound) {entry : EntryLine}
    (entrySound : entry.Sound) :
    (layout.newEntry entry.value).render = entry.render ↔
      IsCanonical layout.entryIndent layout.key.newline entry.render := by
  constructor
  · intro same
    exact same ▸ isCanonical_newEntry layout entrySound.2.2.1
  · rintro ⟨quoted, value, written, whole⟩
    obtain ⟨oneLine, rfl⟩ := writtenFor_iff.mp written
    have same : entry.render = (layout.newEntry value).render := by
      simpa [Layout.newEntry, EntryLine.render, formatEntry] using whole
    -- Both are entry lines, and an entry line has its parts only once.
    have read := EntryLine.ofLine?_render entrySound
    rw [same, EntryLine.ofLine?_render (sound.newEntry oneLine), Option.some.injEq] at read
    rw [same, ← read]
    rfl

/-! ## All lines -/

/-- Writing other values leaves a content as it is exactly if it leaves the entry lines. -/
theorem Layout.Sound.render_withEntries_iff (sound : layout.Sound)
    (oneLine : ∀ value ∈ values, OneLine value) :
    (layout.withEntries values).render = layout.render ↔
      values.map (fun value => (layout.newEntry value).render) =
        layout.entries.map EntryLine.render := by
  have newLines := (sound.withEntries oneLine).lines_body
  have written : (layout.withEntries values).entries.map EntryLine.render =
      values.map fun value => (layout.newEntry value).render := by
    simp [Layout.withEntries]
  constructor
  · intro same
    have body : (layout.withEntries values).body = layout.body :=
      List.append_cancel_left (List.append_cancel_right same)
    rw [← written, ← newLines, body, sound.lines_body]
  · intro same
    have body : (layout.withEntries values).body = layout.body := by
      rw [Layout.body, Layout.body, List.flatMap_def, List.flatMap_def, written, same]
    exact congrArg (fun lines => layout.head ++ lines ++ layout.foot) body

/-- Writing a layout's own values leaves it as it is exactly if its entry lines are canonical. -/
theorem Layout.Sound.render_withEntries_own_iff (sound : layout.Sound)
    (oneLine : ∀ value ∈ layout.entries.map EntryLine.value, OneLine value) :
    (layout.withEntries (layout.entries.map EntryLine.value)).render = layout.render ↔
      ∀ line ∈ Text.lines layout.body,
        IsCanonical layout.entryIndent layout.key.newline line := by
  rw [sound.render_withEntries_iff oneLine, List.map_map, List.map_inj_left, sound.lines_body,
    List.forall_mem_map]
  exact forall₂_congr fun entry member => sound.render_newEntry_iff (sound.entries entry member)

/-! ## The block -/

/-- **A block's own entries only make it canonical.** They can always be written, and the revised
content has a block with the same entries. The content stays as it is exactly if all lines inside
the span of the block are canonical: indented as the first of them, with nothing behind the closing
quote and with the terminator of the key line. -/
theorem replaceEntries_own_entries {content : Text} {block : Block}
    (found : findBlock? content = some block) :
    ∃ revision body, replaceEntries content block.entries = .ok revision ∧
      (∃ revised, findBlock? revision.content = some revised ∧
        revised.entries = block.entries) ∧
      Utf8.encode body =
        ((Utf8.encode content).take block.span.stop).drop block.span.start ∧
      (∀ line ∈ Text.lines body, ∃ indent value, IsEntryLine indent value line) ∧
      (revision.changed = false ↔
        ∀ line ∈ Text.lines body, IsCanonical block.entryIndent block.newline line) := by
  obtain ⟨layout, read, rfl⟩ := Option.map_eq_some_iff.mp found
  obtain ⟨sound, rfl⟩ := Layout.ofContent?_eq_some_iff.mp read
  have oneLine : ∀ value ∈ layout.entries.map EntryLine.value, OneLine value := by
    intro value member
    obtain ⟨entry, given, rfl⟩ := List.mem_map.mp member
    exact (sound.entries entry given).2.2.1
  have replaced := replaceEntries_eq_ok_iff.mpr ⟨layout, read, oneLine, rfl⟩
  have revised := congrArg (Option.map Layout.block) (ofContent?_of_replaceEntries read oneLine)
  refine ⟨_, layout.body, replaced, ⟨_, revised, layout.values_withEntries _⟩,
    layout.span_body.symm, ?lines, ?changed⟩
  case lines =>
    intro line member
    rw [sound.lines_body] at member
    obtain ⟨entry, given, rfl⟩ := List.mem_map.mp member
    exact ⟨_, _, isEntryLine_iff.mpr
      ⟨entry, EntryLine.ofLine?_render (sound.entries entry given), rfl, rfl⟩⟩
  case changed =>
    rw [← Bool.not_eq_true, changed_iff replaced, not_not]
    exact sound.render_withEntries_own_iff oneLine

/-- Runs of quotes, a tab for a space, blanks behind a closing quote and a missing line feed at the
end. -/
theorem replaceEntries_own_entries_loose :
    (findBlock? "options:\r\n - '''a'''''\r\n\t- ''\t".toList).map Block.entries =
        some ["'a''".toList, []] ∧
      ∃ revision revised,
        replaceEntries "options:\r\n - '''a'''''\r\n\t- ''\t".toList ["'a''".toList, []] =
          .ok revision ∧
        findBlock? revision.content = some revised ∧ revised.entries = ["'a''".toList, []] ∧
        revision.content = "options:\r\n - '''a'''''\r\n - ''\r\n".toList := by
  have found : findBlock? "options:\r\n - '''a'''''\r\n\t- ''\t".toList =
      some ⟨[' '], .crlf, ["'a''".toList, []], ⟨10, 30⟩, 1⟩ := rfl
  obtain ⟨revision, _, replaced, ⟨revised, read, same⟩, -⟩ := replaceEntries_own_entries found
  cases replaced
  exact ⟨rfl, _, revised, rfl, read, same, rfl⟩

end ReleasePicker.Options
