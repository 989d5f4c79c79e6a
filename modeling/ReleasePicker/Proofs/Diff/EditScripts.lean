import ReleasePicker.Proofs.Diff.Comparisons

/-!
The changes that are listed for two texts are an edit script between them: there is one alignment
of their lines of which they are the removals and the additions, and nothing else. So no line of
either text is lost, given twice or out of its order, and two texts without changes are the same
text (`changedLines_eq_nil_iff`).
-/
namespace ReleasePicker.Diff

open ReleasePicker.Diff.Alignment (uniform)
open Text (breaksLine)

/-! ## Terminators -/

/-- A line that is compared and what is left of it without its terminator. -/
def IsBare (bare line : Text) : Prop :=
  (∀ c ∈ bare, breaksLine c = false) ∧
    ∃ ending, (ending = [] ∨ IsTerminator ending) ∧ line = bare ++ ending

theorem dropTerminator_append {bare ending : Text} (plain : ∀ c ∈ bare, breaksLine c = false)
    (ends : ending = [] ∨ IsTerminator ending) : dropTerminator (bare ++ ending) = bare := by
  have kept : ∀ c ∈ bare, (!breaksLine c) = true := fun c member => by simp [plain c member]
  rw [dropTerminator, List.takeWhile_append_of_pos kept]
  rcases ends with rfl | _ | _ | _ <;> simp [breaksLine]

theorem LineCut.isBare (cut : LineCut pieces) :
    ∀ line ∈ pieces, IsBare (dropTerminator line) line := by
  induction cut with
  | nil => simp
  | last _ plain =>
    have bare := dropTerminator_append plain (.inl rfl)
    rw [List.append_nil] at bare
    rintro line (_ | ⟨_, ⟨⟩⟩)
    rw [bare]
    exact ⟨plain, [], .inl rfl, by simp⟩
  | cons plain ends _ _ ih =>
    rintro line (_ | ⟨_, member⟩)
    · rw [dropTerminator_append plain (.inr ends)]
      exact ⟨plain, _, .inr ends, rfl⟩
    · exact ih line member

/-! ## Alignments without changes -/

/-- Where nothing is removed and nothing added, both sides are the same. -/
theorem Alignment.old_eq_new {alignment : Alignment Text} (none : alignment.changes = []) :
    alignment.old = alignment.new := by
  have kept : ∀ mark ∈ alignment, mark.1 = .keep := by
    intro mark member
    have silent := List.filterMap_eq_nil_iff.mp none mark member
    obtain ⟨action, line⟩ := mark
    cases action <;> simp_all [Alignment.change?]
  rw [Alignment.old, Alignment.new, List.filter_eq_self.mpr, List.filter_eq_self.mpr]
  · exact fun mark member => by simp [kept mark member]
  · exact fun mark member => by simp [kept mark member]

/-! ## The script -/

/-- The changes that are listed for two texts are those of an alignment of their lines. -/
theorem exists_alignment_of_lines (old new : Text) :
    ∃ alignment : Alignment Text, alignment.old = splitLines old ∧
      alignment.new = splitLines new ∧ alignment.changes = changedLines old new := by
  by_cases same : old = new
  · subst same
    refine ⟨uniform .keep (splitLines old), by simp, by simp, ?_⟩
    rw [changes_uniform, changedLines, if_pos rfl]
  · obtain ⟨alignment, rearranged, changes⟩ := exists_alignment same
    have compared := (spells_compare (splitLines old) (splitLines new)).alignment
    have kept := rearranged.spells
    exact ⟨alignment, kept.1.trans compared.1, kept.2.trans compared.2, changes⟩

theorem changedLines_eq_nil_iff {old new : Text} : changedLines old new = [] ↔ old = new := by
  constructor
  · intro none
    obtain ⟨alignment, oldLines, newLines, changes⟩ := exists_alignment_of_lines old new
    have sides := Alignment.old_eq_new (changes.trans none)
    rw [oldLines, newLines] at sides
    rw [← flatten_splitLines old, sides, flatten_splitLines]
  · rintro rfl
    exact if_pos rfl

/-- **The listed changes are an edit script.** Both texts, cut into lines, are spelled by one
sequence of kept, removed and added lines, and the listed changes are its removed and added lines
in their order, without their terminators. No change is listed exactly if the texts are the same,
so texts that differ in a terminator alone have changes. -/
theorem changedLines_spell_texts (old new : Text) :
    ∃ alignment : Alignment Text,
      (LineCut alignment.old ∧ alignment.old.flatten = old) ∧
      (LineCut alignment.new ∧ alignment.new.flatten = new) ∧
      (∀ line, line ∈ alignment.old ∨ line ∈ alignment.new → IsBare (dropTerminator line) line) ∧
      alignment.changes = changedLines old new ∧
      (changedLines old new = [] ↔ old = new) := by
  obtain ⟨alignment, oldLines, newLines, changes⟩ := exists_alignment_of_lines old new
  have oldCut := splitLines_eq_iff.mp oldLines.symm
  have newCut := splitLines_eq_iff.mp newLines.symm
  refine ⟨alignment, oldCut, newCut, ?_, changes, changedLines_eq_nil_iff⟩
  rintro line (member | member)
  · exact oldCut.1.isBare line member
  · exact newCut.1.isBare line member

end ReleasePicker.Diff
