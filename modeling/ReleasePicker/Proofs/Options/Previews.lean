import ReleasePicker.Proofs.Diff.Comparisons
import ReleasePicker.Proofs.Options.BlockReading

/-!
What a preview of a revision shows. The lines that are compared are those of the file, cut at lone
carriage returns as well. Every entry line is one of them, and neither the key line above the entry
lines nor what stands right below them is like an entry line, so all changes are changes of entry
lines.
-/
namespace ReleasePicker.Options

open ReleasePicker.Diff
open Text (Cut breaksLine)

/-- Whether a line can stand in the run of an options block. -/
def IsRunLine (line : Text) : Prop :=
  ∃ entry, EntryLine.ofLine? line = some entry

variable {layout : Layout} {values : List Text}

/-! ## The lines of a layout -/

theorem plain_of_oneLine (oneLine : OneLine text) : ∀ c ∈ text, breaksLine c = false :=
  fun c member => breaksLine_eq_false_iff.mpr (oneLine c member)

theorem splitLines_ended (oneLine : OneLine text) (newline : Newline) (rest : Text) :
    splitLines (text ++ newline.text ++ rest) = (text ++ newline.text) :: splitLines rest := by
  rw [List.append_assoc]
  apply splitLines_append_of_plain (plain_of_oneLine oneLine)
  cases newline <;> rfl

/-- Entry lines are cut as they stand in the file. -/
theorem splitLines_entries {entries : List EntryLine} {after : List Text}
    (sound : ∀ entry ∈ entries, entry.Sound) (cut : Cut (entries.map EntryLine.render ++ after)) :
    splitLines ((entries.map EntryLine.render).flatten ++ after.flatten) =
      entries.map EntryLine.render ++ splitLines after.flatten := by
  induction entries with
  | nil => rfl
  | cons entry entries ih =>
    have oneLine := (sound entry (by simp)).oneLine
    obtain ⟨ended, below⟩ := Text.cut_cons cut
    have rest := ih (fun other member => sound other (by simp [member])) below
    rw [List.map_cons, List.flatten_cons, List.append_assoc, List.cons_append, ← rest]
    cases last : entry.newline with
    | some newline =>
      rw [EntryLine.render, last]
      exact splitLines_ended oneLine newline _
    | none =>
      -- Without a line feed the entry line is the last line of the file.
      have unended : ¬ Text.Terminated entry.render := by
        rintro ⟨body, -, whole⟩
        exact entry.feed_not_mem (sound entry (by simp)) last (by rw [whole]; simp)
      obtain ⟨noEntries, rfl⟩ := List.append_eq_nil_iff.mp (ended.resolve_left unended)
      have written : entry.render ≠ [] := by simp [EntryLine.render, formatEntry]
      have plain : ∀ c ∈ entry.render, breaksLine c = false := by
        simpa [EntryLine.render, last] using plain_of_oneLine oneLine
      simpa [noEntries] using splitLines_of_plain plain written

/-- The lines of a layout: those up to the key line, the entry lines, and all others. -/
theorem Layout.Sound.splitLines_render (sound : layout.Sound) :
    splitLines layout.render =
      splitLines layout.before.flatten ++ [layout.key.render] ++
        layout.entries.map EntryLine.render ++ splitLines layout.foot := by
  have above := Text.getLast?_flatten (sound.cut.terminated (by simp))
  have key : splitLines layout.key.render = [layout.key.render] := by
    have word : OneLine keyword := by decide
    have oneLine := ((oneLine_of_blank sound.key.1).append word).append
      (oneLine_of_blank sound.key.2)
    simpa [KeyLine.render] using splitLines_ended oneLine layout.key.newline []
  have feed : layout.head = [] ∨ layout.head.getLast? = some '\n' := by
    obtain ⟨body, -, ended⟩ := KeyLine.terminated_render sound.key
    exact .inr (by simp [Layout.head, ended])
  have entries := splitLines_entries sound.entries sound.cut_below
  rw [Layout.render, List.append_assoc, splitLines_append_of_feed feed, Layout.head,
    splitLines_append_of_feed above, key, Layout.body, List.flatMap_def, Layout.foot, entries,
    List.append_assoc, List.append_assoc, List.append_assoc]

/-! ## What stands around the entry lines -/

theorem isRunLine_render {entry : EntryLine} (sound : entry.Sound) : IsRunLine entry.render :=
  ⟨entry, EntryLine.ofLine?_render sound⟩

/-- A key line is no entry line. -/
theorem not_isRunLine_key {key : KeyLine} (sound : key.Sound) : ¬ IsRunLine key.render := by
  rintro ⟨entry, read⟩
  obtain ⟨entrySound, same⟩ := EntryLine.eq_render_of_ofLine? read
  have keyRest :
      key.render.dropWhile Text.isIndent = keyword ++ (key.tail ++ key.newline.text) := by
    rw [KeyLine.render, List.append_assoc, List.append_assoc]
    exact dropWhile_blank sound.1 (by simp [keyword, Text.isIndent])
  have entryRest : ∃ rest, entry.render.dropWhile Text.isIndent = '-' :: rest := by
    rw [EntryLine.render, formatEntry]
    simp only [List.append_assoc]
    exact ⟨_, dropWhile_blank entrySound.2.1 (by simp [Text.isIndent])⟩
  obtain ⟨rest, entryRest⟩ := entryRest
  rw [same, entryRest] at keyRest
  simp [keyword] at keyRest

/-- A line that a lone carriage return ends is no entry line. -/
theorem not_isRunLine_of_carriage (ended : line.getLast? = some '\r') : ¬ IsRunLine line := by
  rintro ⟨entry, read⟩
  obtain ⟨sound, rfl⟩ := EntryLine.eq_render_of_ofLine? read
  cases last : entry.newline with
  | none =>
    have member := List.mem_of_getLast? ended
    simp only [EntryLine.render, last, Option.map_none, Option.getD_none, List.append_nil] at member
    exact (sound.oneLine '\r' member).2 rfl
  | some newline => cases newline <;> simp [EntryLine.render, last, Newline.text] at ended

/-- What stands right below the entry lines is no entry line. -/
theorem Layout.Sound.not_isRunLine_foot (sound : layout.Sound) :
    ∀ line ∈ (splitLines layout.foot).head?, ¬ IsRunLine line := by
  intro line known
  rcases head_splitLines known with carriage | first
  · exact not_isRunLine_of_carriage carriage
  · rw [Layout.foot, Text.lines_flatten (sound.cut_below.right _)] at first
    rintro ⟨entry, read⟩
    rw [sound.stop line first] at read
    cases read

/-! ## The preview -/

/-- An entry line that is compared loses its terminator like every line that is listed. -/
theorem map_dropTerminator_render {entries : List EntryLine}
    (sound : ∀ entry ∈ entries, entry.Sound) :
    (entries.map EntryLine.render).map dropTerminator =
      entries.map fun entry => formatEntry entry.indent entry.value ++ entry.tail := by
  rw [List.map_map]
  refine List.map_congr_left fun entry member => ?_
  have plain := plain_of_oneLine (sound entry member).oneLine
  have kept : ∀ c ∈ formatEntry entry.indent entry.value ++ entry.tail,
      (!breaksLine c) = true := by
    intro c member
    simp [plain c member]
  change (EntryLine.render entry).takeWhile _ = _
  rw [EntryLine.render, List.takeWhile_append_of_pos kept]
  rcases entry.newline with _ | _ | _ <;> simp [Newline.text, breaksLine]

/-- The bytes inside the span of the block are those of its entry lines. -/
theorem Layout.span_body (layout : Layout) :
    ((Utf8.encode layout.render).take layout.block.span.stop).drop layout.block.span.start =
      Utf8.encode layout.body := by
  have stop : layout.block.span.stop = Text.byteLength (layout.head ++ layout.body) := by
    simp [Layout.block]
  rw [stop, Layout.render, Utf8.take_encode]
  exact Utf8.drop_encode layout.head layout.body

/-- **A preview speaks of nothing but entries.** The lines that a revision of a content is listed to
remove and to add are those of an alignment of the old entry lines with the new ones: what stands
inside the span of the block, line by line, and a line for every value. The lines that are not
listed are the same on both sides, in the same order. So what is removed is a part of the old entry
lines in their order, and what is added is a part of the new ones, even where the same lines stand
elsewhere in the content. -/
theorem changedLines_revision {content : Text} {revision : Revision}
    (replaced : replaceEntries content values = .ok revision) :
    ∃ (body : Text) (alignment : Diff.Alignment Text),
      Utf8.encode body = ((Utf8.encode content).take revision.previous.span.stop).drop
        revision.previous.span.start ∧
      alignment.old = Text.lines body ∧
      alignment.new = values.map (fun value =>
        formatEntry revision.previous.entryIndent value ++ revision.previous.newline.text) ∧
      changedLines content revision.content = alignment.changes ∧
      (removedLines (changedLines content revision.content)).Sublist (Text.bareLines body) ∧
      (addedLines (changedLines content revision.content)).Sublist
        (values.map (formatEntry revision.previous.entryIndent)) := by
  obtain ⟨layout, found, oneLine, rfl⟩ := replaceEntries_eq_ok_iff.mp replaced
  obtain ⟨sound, rfl⟩ := Layout.ofContent?_eq_some_iff.mp found
  have newSound := sound.withEntries oneLine
  have runLines {layout : Layout} (sound : layout.Sound) :
      ∀ line ∈ layout.entries.map EntryLine.render, IsRunLine line := by
    intro line member
    obtain ⟨entry, given, rfl⟩ := List.mem_map.mp member
    exact isRunLine_render (sound.entries entry given)
  obtain ⟨alignment, old, new, changes⟩ := exists_inner sound.splitLines_render
    newSound.splitLines_render (runLines sound) (runLines newSound)
    (by simpa using not_isRunLine_key sound.key) sound.not_isRunLine_foot
  have changes : alignment.changes =
      changedLines layout.render (layout.revision values).content := changes
  have cut : Cut (layout.entries.map EntryLine.render) :=
    (Text.cut_cons (sound.cut.right layout.before)).2.left
  have newLines : (layout.withEntries values).entries.map EntryLine.render =
      values.map fun value => formatEntry layout.entryIndent value ++ layout.key.newline.text := by
    simp [Layout.withEntries, Layout.newEntry, EntryLine.render, Function.comp_def]
  refine ⟨layout.body, alignment, layout.span_body.symm, ?old, ?new, changes.symm, ?removed,
    ?added⟩
  case old => rw [old, Layout.body, List.flatMap_def, Text.lines_flatten cut]
  case new => rw [new, newLines]; rfl
  case removed =>
    have part := alignment.only_drop_sublist.map dropTerminator
    rw [old, map_dropTerminator_render sound.entries, ← bareLines_body sound] at part
    rw [← changes, removedLines_changes]
    exact part
  case added =>
    have part := alignment.only_add_sublist.map dropTerminator
    rw [new, map_dropTerminator_render newSound.entries] at part
    rw [← changes, addedLines_changes]
    have bare : (layout.withEntries values).entries.map
        (fun entry => formatEntry entry.indent entry.value ++ entry.tail) =
          values.map (formatEntry layout.entryIndent) := by
      simp [Layout.withEntries, Layout.newEntry, Function.comp_def]
    exact bare ▸ part

/-- An entry line above the block, the same block once more below it, and an entry that is given
twice. -/
def twinContent : Text :=
  "  - 'a'\noptions:\n  - 'a'\n  - 'b'\noptions:\n  - 'a'\n".toList

theorem changedLines_revision_twins :
    ∃ revision, replaceEntries twinContent ["a".toList, "a".toList] = .ok revision ∧
      (removedLines (changedLines twinContent revision.content)).Sublist
        ["  - 'a'".toList, "  - 'b'".toList] := by
  obtain ⟨revision, replaced, stretch⟩ : ∃ revision,
      replaceEntries twinContent ["a".toList, "a".toList] = .ok revision ∧
        revision.previous.span = ⟨17, 33⟩ :=
    ⟨_, rfl, rfl⟩
  obtain ⟨body, -, span, -, -, -, removed, -⟩ := changedLines_revision replaced
  have read : Utf8.decode? (Utf8.encode body) = some "  - 'a'\n  - 'b'\n".toList := by
    rw [span, stretch]
    cbv
  rw [Utf8.decode?_encode, Option.some.injEq] at read
  rw [read] at removed
  have bare : Text.bareLines "  - 'a'\n  - 'b'\n".toList =
      ["  - 'a'".toList, "  - 'b'".toList] := by
    cbv
  exact ⟨revision, replaced, bare ▸ removed⟩

end ReleasePicker.Options
