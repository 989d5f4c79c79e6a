import ReleasePicker.Proofs.Options.BlockGrammar
import ReleasePicker.Proofs.Options.Revisions

/-!
Why entries are refused, said of the content and the values alone. A content without a key line is
refused whatever the values are; otherwise the first value that is not on one line is to blame.
-/
namespace ReleasePicker.Options

open Text (breaksLine)

/-- Whether a content has a line that starts an options block. -/
def HasKeyLine (content : Text) : Prop :=
  ∃ line ∈ Text.lines content, ∃ indent newline, IsKeyLine indent newline line

/-- What stands in the way of writing values as the entries of a content. -/
inductive Refusal (content : Text) (values : List Text) : RevisionError → Prop where
  | noBlock (none : ¬ HasKeyLine content) : Refusal content values .blockNotFound
  | brokenEntry (some : HasKeyLine content) (order : values = before ++ value :: after)
      (first : ∀ other ∈ before, OneLine other) (broken : ¬ OneLine value) :
      Refusal content values (.invalidEntry value multilineReason)

theorem ofContent?_eq_none_iff_hasKeyLine {content : Text} :
    Layout.ofContent? content = none ↔ ¬ HasKeyLine content := by
  simp only [Layout.ofContent?_eq_none_iff, ← not_isKeyLine_iff, HasKeyLine, not_exists, not_and]

theorem hasKeyLine_of_found {content : Text} {block : Block}
    (found : findBlock? content = some block) : HasKeyLine content := by
  obtain ⟨layout, read, -⟩ := Option.map_eq_some_iff.mp found
  by_contra none
  rw [ofContent?_eq_none_iff_hasKeyLine.mpr none] at read
  cases read

theorem not_oneLine_iff {value : Text} : ¬ OneLine value ↔ value.any breaksLine = true := by
  rw [← any_breaksLine_eq_false_iff, Bool.not_eq_false]

/-- Entries are refused exactly if something stands in the way of writing them. -/
theorem replaceEntries_eq_error_iff {content : Text} {values : List Text} {error : RevisionError} :
    replaceEntries content values = .error error ↔ Refusal content values error := by
  rw [replaceEntries_eq]
  constructor
  · intro failed
    cases found : Layout.ofContent? content with
    | none =>
      rw [found] at failed
      cases failed
      exact .noBlock (ofContent?_eq_none_iff_hasKeyLine.mp found)
    | some layout =>
      have keyed : HasKeyLine content := by
        by_contra none
        simp [ofContent?_eq_none_iff_hasKeyLine.mpr none] at found
      rw [found] at failed
      dsimp only at failed
      split at failed
      · rename_i value sought
        cases failed
        obtain ⟨broken, before, after, order, first⟩ := List.find?_eq_some_iff_append.mp sought
        refine .brokenEntry keyed order (fun other member => ?_) (not_oneLine_iff.mpr broken)
        exact any_breaksLine_eq_false_iff.mp (by simpa using first other member)
      · cases failed
  · rintro (none | @⟨before, value, after, keyed, order, first, broken⟩)
    · rw [ofContent?_eq_none_iff_hasKeyLine.mpr none]
    · have sought : values.find? (·.any breaksLine) = some value :=
        List.find?_eq_some_iff_append.mpr ⟨not_oneLine_iff.mp broken, before, after, order,
          fun other member => by simp [any_breaksLine_eq_false_iff.mpr (first other member)]⟩
      cases found : Layout.ofContent? content with
      | none => exact absurd keyed (ofContent?_eq_none_iff_hasKeyLine.mp found)
      | some layout => simp only [sought]

/-- A revision counts as a change if the content is another one. -/
theorem changed_iff {content : Text} {values : List Text} {revision : Revision}
    (replaced : replaceEntries content values = .ok revision) :
    revision.changed = true ↔ revision.content ≠ content := by
  obtain ⟨layout, found, -, rfl⟩ := replaceEntries_eq_ok_iff.mp replaced
  obtain ⟨-, rfl⟩ := Layout.ofContent?_eq_some_iff.mp found
  exact bne_iff_ne

end ReleasePicker.Options
