import ReleasePicker.Proofs.Options.LineForms

/-!
The layout of a content is the only one that prints as the content and keeps to the line grammar
(`Layout.ofContent?_eq_some_iff`). Everything about finding a block again after a change follows
from this: it is enough that the changed layout keeps to the grammar.
-/
namespace ReleasePicker.Options

open Text (Cut Terminated)

/-- All lines of a layout as they stand in the file. -/
def Layout.lines (layout : Layout) : List Text :=
  layout.before ++ layout.key.render :: (layout.entries.map EntryLine.render ++ layout.after)

/-- A layout that keeps to the line grammar: its lines are whole lines, its key line is the first
one, and its run of entry lines goes on as far as it can. -/
structure Layout.Sound (layout : Layout) : Prop where
  cut : Cut layout.lines
  above : ∀ line ∈ layout.before, KeyLine.ofLine? line = none
  key : layout.key.Sound
  entries : ∀ entry ∈ layout.entries, entry.Sound
  stop : ∀ line ∈ layout.after.head?, EntryLine.ofLine? line = none

theorem Layout.flatten_lines (layout : Layout) : layout.lines.flatten = layout.render := by
  simp [Layout.lines, Layout.render, Layout.head, Layout.body, Layout.foot, List.flatMap_def]

/-- The lines below the key line are whole lines as well. -/
theorem Layout.Sound.cut_below {layout : Layout} (sound : layout.Sound) :
    Cut (layout.entries.map EntryLine.render ++ layout.after) :=
  (Text.cut_cons (sound.cut.right layout.before)).2

/-- The entry lines of a layout are the lines of the text that they make up. -/
theorem Layout.Sound.lines_body {layout : Layout} (sound : layout.Sound) :
    Text.lines layout.body = layout.entries.map EntryLine.render := by
  rw [Layout.body, List.flatMap_def, Text.lines_flatten sound.cut_below.left]

theorem seekKey_eq_some_iff {pieces before below : List Text} {key : KeyLine} :
    seekKey pieces = some (before, key, below) ↔
      pieces = before ++ key.render :: below ∧ key.Sound ∧
        ∀ line ∈ before, KeyLine.ofLine? line = none := by
  induction pieces generalizing before with
  | nil => simp [seekKey]
  | cons line rest ih =>
    cases read : KeyLine.ofLine? line with
    | some found =>
      obtain ⟨sound, rfl⟩ := KeyLine.eq_render_of_ofLine? read
      simp only [seekKey, read, Option.some.injEq, Prod.mk.injEq]
      constructor
      · rintro ⟨rfl, rfl, rfl⟩
        exact ⟨rfl, sound, by simp⟩
      · rintro ⟨whole, keySound, above⟩
        cases before with
        | nil =>
          simp only [List.nil_append, List.cons.injEq] at whole
          have same := KeyLine.ofLine?_render keySound
          rw [← whole.1, read] at same
          exact ⟨rfl, Option.some.inj same, whole.2⟩
        | cons first before =>
          simp only [List.cons_append, List.cons.injEq] at whole
          have none := above first (by simp)
          rw [← whole.1, read] at none
          cases none
    | none =>
      simp only [seekKey, read, Option.map_eq_some_iff, Prod.mk.injEq]
      constructor
      · rintro ⟨⟨above, found, rest'⟩, sought, rfl, rfl, rfl⟩
        obtain ⟨rfl, sound, none⟩ := ih.mp sought
        exact ⟨rfl, sound, by simpa [read] using none⟩
      · rintro ⟨whole, sound, above⟩
        cases before with
        | nil =>
          simp only [List.nil_append, List.cons.injEq] at whole
          rw [whole.1, KeyLine.ofLine?_render sound] at read
          cases read
        | cons first before =>
          simp only [List.cons_append, List.cons.injEq] at whole
          obtain ⟨rfl, rfl⟩ := whole
          exact ⟨(before, key, below),
            ih.mpr ⟨rfl, sound, fun other member => above other (by simp [member])⟩, rfl, rfl, rfl⟩

theorem takeEntries_eq_iff {pieces after : List Text} {entries : List EntryLine} :
    takeEntries pieces = (entries, after) ↔
      pieces = entries.map EntryLine.render ++ after ∧ (∀ entry ∈ entries, entry.Sound) ∧
        ∀ line ∈ after.head?, EntryLine.ofLine? line = none := by
  induction pieces generalizing entries with
  | nil =>
    simp only [takeEntries, Prod.mk.injEq]
    constructor
    · rintro ⟨rfl, rfl⟩
      simp
    · rintro ⟨whole, -, -⟩
      simp only [List.nil_eq, List.append_eq_nil_iff, List.map_eq_nil_iff] at whole
      exact ⟨whole.1.symm, whole.2.symm⟩
  | cons line rest ih =>
    cases read : EntryLine.ofLine? line with
    | none =>
      simp only [takeEntries, read, Prod.mk.injEq]
      constructor
      · rintro ⟨rfl, rfl⟩
        simpa using read
      · rintro ⟨whole, sound, -⟩
        cases entries with
        | nil => exact ⟨rfl, by simpa using whole⟩
        | cons entry entries =>
          simp only [List.map_cons, List.cons_append, List.cons.injEq] at whole
          rw [whole.1, EntryLine.ofLine?_render (sound entry (by simp))] at read
          cases read
    | some found =>
      obtain ⟨foundSound, rfl⟩ := EntryLine.eq_render_of_ofLine? read
      simp only [takeEntries, read, Prod.mk.injEq]
      constructor
      · rintro ⟨rfl, rfl⟩
        obtain ⟨whole, sound, stop⟩ := ih.mp (Prod.eta (takeEntries rest)).symm
        refine ⟨by rw [List.map_cons, List.cons_append, ← whole], ?_, stop⟩
        simpa using ⟨foundSound, sound⟩
      · rintro ⟨whole, sound, stop⟩
        cases entries with
        | nil =>
          rw [List.map_nil, List.nil_append] at whole
          subst whole
          exact absurd (stop found.render rfl) (by simp [read])
        | cons entry entries =>
          simp only [List.map_cons, List.cons_append, List.cons.injEq] at whole
          have same := EntryLine.ofLine?_render (sound entry (by simp))
          rw [← whole.1, read] at same
          have below := ih.mpr ⟨whole.2, fun other member => sound other (by simp [member]), stop⟩
          simp [below, Option.some.inj same]

/-- The layout of a content is the one that prints as the content and keeps to the grammar. -/
theorem Layout.ofContent?_eq_some_iff {content : Text} {layout : Layout} :
    Layout.ofContent? content = some layout ↔ layout.Sound ∧ content = layout.render := by
  constructor
  · intro found
    simp only [Layout.ofContent?, Option.bind_eq_bind, Option.bind_eq_some_iff] at found
    obtain ⟨⟨before, key, below⟩, sought, made⟩ := found
    cases made
    obtain ⟨whole, keySound, above⟩ := seekKey_eq_some_iff.mp sought
    obtain ⟨run, entriesSound, stop⟩ := takeEntries_eq_iff.mp (Prod.eta (takeEntries below)).symm
    have same : Layout.lines ⟨before, key, (takeEntries below).1, (takeEntries below).2⟩ =
        Text.lines content := by
      simp only [Layout.lines, ← run, whole]
    refine ⟨⟨same ▸ Text.cut_lines content, above, keySound, entriesSound, stop⟩, ?_⟩
    rw [← Layout.flatten_lines, same, Text.flatten_lines]
  · rintro ⟨sound, rfl⟩
    obtain ⟨before, key, entries, after⟩ := layout
    have cut : Text.lines (Layout.render ⟨before, key, entries, after⟩) =
        Layout.lines ⟨before, key, entries, after⟩ := by
      rw [← Layout.flatten_lines, Text.lines_flatten sound.cut]
    have sought := seekKey_eq_some_iff.mpr ⟨cut, sound.key, sound.above⟩
    have run := takeEntries_eq_iff.mpr ⟨rfl, sound.entries, sound.stop⟩
    simp [Layout.ofContent?, sought, run]

theorem seekKey_eq_none_iff {pieces : List Text} :
    seekKey pieces = none ↔ ∀ line ∈ pieces, KeyLine.ofLine? line = none := by
  induction pieces with
  | nil => simp [seekKey]
  | cons line rest ih =>
    simp only [seekKey, List.mem_cons, forall_eq_or_imp]
    split
    · rename_i read
      simp [read]
    · rename_i read
      simp [read, ih]

/-- A content has no layout if none of its lines is a key line. -/
theorem Layout.ofContent?_eq_none_iff {content : Text} :
    Layout.ofContent? content = none ↔
      ∀ line ∈ Text.lines content, KeyLine.ofLine? line = none := by
  rw [← seekKey_eq_none_iff, Layout.ofContent?]
  cases seekKey (Text.lines content) <;> simp

end ReleasePicker.Options
