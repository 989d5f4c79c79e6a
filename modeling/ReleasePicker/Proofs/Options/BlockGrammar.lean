import ReleasePicker.Proofs.Options.Layouts
import Mathlib.Data.List.Basic

/-!
The line readers find exactly the block that the line grammar describes. A layout that keeps to the
grammar and a block of the grammar are the same lines told twice, once with their parts and once
without.
-/
namespace ReleasePicker.Options

open Text (Cut Terminated)

theorem entryRun_iff {run indents values : List Text} :
    EntryRun run indents values ↔
      ∃ entries : List EntryLine, (∀ entry ∈ entries, entry.Sound) ∧
        run = entries.map EntryLine.render ∧ indents = entries.map EntryLine.indent ∧
        values = entries.map EntryLine.value := by
  constructor
  · intro known
    induction known with
    | nil => exact ⟨[], by simp, rfl, rfl, rfl⟩
    | cons first _ ih =>
      obtain ⟨entry, read, rfl, rfl⟩ := isEntryLine_iff.mp first
      obtain ⟨sound, rfl⟩ := EntryLine.eq_render_of_ofLine? read
      obtain ⟨entries, below, rfl, rfl, rfl⟩ := ih
      exact ⟨entry :: entries, by simpa using ⟨sound, below⟩, rfl, rfl, rfl⟩
  · rintro ⟨entries, sound, rfl, rfl, rfl⟩
    induction entries with
    | nil => exact .nil
    | cons entry entries ih =>
      have first := EntryLine.ofLine?_render (sound entry (by simp))
      exact .cons (isEntryLine_iff.mpr ⟨entry, first, rfl, rfl⟩)
        (ih fun other member => sound other (by simp [member]))

theorem not_isKeyLine_iff {line : Text} :
    (¬ ∃ indent newline, IsKeyLine indent newline line) ↔ KeyLine.ofLine? line = none := by
  simp only [isKeyLine_iff, Option.eq_none_iff_forall_ne_some]
  exact ⟨fun none key read => none ⟨_, _, key, read, rfl, rfl⟩,
    fun none ⟨_, _, key, read, _, _⟩ => none key read⟩

theorem not_isEntryLine_iff {line : Text} :
    (¬ ∃ indent value, IsEntryLine indent value line) ↔ EntryLine.ofLine? line = none := by
  simp only [isEntryLine_iff, Option.eq_none_iff_forall_ne_some]
  exact ⟨fun none entry read => none ⟨_, _, entry, read, rfl, rfl⟩,
    fun none ⟨_, _, entry, read, _, _⟩ => none entry read⟩

theorem Layout.Sound.count_feeds {layout : Layout} (sound : layout.Sound) :
    layout.before.flatten.count '\n' = layout.before.length :=
  Text.count_feeds (sound.cut.terminated (by simp))

theorem Layout.entryIndent_eq (layout : Layout) :
    layout.entryIndent =
      (layout.entries.map EntryLine.indent).headD (layout.key.indent ++ [' ', ' ']) := by
  unfold Layout.entryIndent
  split
  · rename_i none
    simp [none]
  · rename_i first rest some
    simp [some]

/-- The block of a layout is a block of the line grammar. -/
theorem isBlock_of_sound {layout : Layout} (sound : layout.Sound) :
    IsBlock layout.render layout.block := by
  refine ⟨layout.before, layout.key.render, layout.key.indent, layout.entries.map EntryLine.render,
    layout.entries.map EntryLine.indent, layout.after, sound.cut, ?_, ?_, ?_, ?_, ?_,
    layout.entryIndent_eq, ?_, ?_, ?_⟩
  · simp [Layout.render, Layout.head, Layout.body, Layout.foot, List.flatMap_def]
  · exact fun line member => not_isKeyLine_iff.mpr (sound.above line member)
  · exact isKeyLine_iff.mpr ⟨layout.key, KeyLine.ofLine?_render sound.key, rfl, rfl⟩
  · exact entryRun_iff.mpr ⟨layout.entries, sound.entries, rfl, rfl, rfl⟩
  · exact fun line member => not_isEntryLine_iff.mpr (sound.stop line member)
  · rw [sound.count_feeds]
    rfl
  · rfl
  · simp [Layout.block, Layout.head, Layout.body, List.flatMap_def, Nat.add_assoc]

/-- The lines of a block of the line grammar are a layout of the content. -/
theorem exists_layout_of_isBlock {content : Text} {block : Block} (known : IsBlock content block) :
    ∃ layout : Layout, layout.Sound ∧ content = layout.render ∧ block = layout.block := by
  obtain ⟨above, keyLine, keyIndent, run, indents, below, cut, whole, noKey, isKey, entryRun, stop,
    indent, line, start, spanStop⟩ := known
  obtain ⟨key, read, rfl, newline⟩ := isKeyLine_iff.mp isKey
  obtain ⟨keySound, rfl⟩ := KeyLine.eq_render_of_ofLine? read
  obtain ⟨entries, entriesSound, rfl, rfl, values⟩ := entryRun_iff.mp entryRun
  have sound : Layout.Sound ⟨above, key, entries, below⟩ :=
    { cut := cut
      above := fun line member => not_isKeyLine_iff.mp (noKey line member)
      key := keySound
      entries := entriesSound
      stop := fun line member => not_isEntryLine_iff.mp (stop line member) }
  refine ⟨⟨above, key, entries, below⟩, sound, ?_, ?_⟩
  · rw [whole]
    simp [Layout.render, Layout.head, Layout.body, Layout.foot, List.flatMap_def]
  · obtain ⟨entryIndent, known, given, ⟨first, last⟩, number⟩ := block
    dsimp only at newline values indent line start spanStop
    have indentEq := Layout.entryIndent_eq ⟨above, key, entries, below⟩
    rw [Text.count_feeds (sound.cut.terminated (by simp))] at line
    simp only [Layout.block, Layout.head, Layout.body, List.flatMap_def, ← Text.byteLength_append,
      Block.mk.injEq, Span.mk.injEq]
    exact ⟨indent.trans indentEq.symm, newline.symm, values, ⟨start, spanStop⟩, line⟩

/-- The line readers find exactly the block that the line grammar has. -/
theorem findBlock?_eq_some_iff {content : Text} {block : Block} :
    findBlock? content = some block ↔ IsBlock content block := by
  constructor
  · intro found
    obtain ⟨layout, read, rfl⟩ := Option.map_eq_some_iff.mp found
    obtain ⟨sound, rfl⟩ := Layout.ofContent?_eq_some_iff.mp read
    exact isBlock_of_sound sound
  · intro known
    obtain ⟨layout, sound, rfl, rfl⟩ := exists_layout_of_isBlock known
    rw [findBlock?, Layout.ofContent?_eq_some_iff.mpr ⟨sound, rfl⟩, Option.map_some]

/-- The span of a block lies in the content, between characters. -/
theorem exists_cut_of_isBlock {content : Text} {block : Block} (known : IsBlock content block) :
    ∃ head body foot, content = head ++ body ++ foot ∧
      block.span.start = Text.byteLength head ∧
      block.span.stop = Text.byteLength (head ++ body) := by
  obtain ⟨above, keyLine, _, run, _, below, -, whole, -, -, -, -, -, -, start, stop⟩ := known
  exact ⟨above.flatten ++ keyLine, run.flatten, below.flatten, whole, start, stop⟩

end ReleasePicker.Options
