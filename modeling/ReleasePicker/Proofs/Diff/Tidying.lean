import ReleasePicker.Proofs.Diff.Rearrangements

/-!
Tidying a script rearranges its alignment (`rearranged_compact`), and so does reading the changes
off it (`exists_changes`): between two kept lines the removals come first there. Each turn of the
recursions is one step, or none where only the cut into edits changes.
-/
namespace ReleasePicker.Diff

open ReleasePicker.Diff.Alignment (Rearranged Move uniform)

variable {α : Type}

/-! ## Alignments of scripts -/

namespace Script

@[simp] theorem alignment_nil : Script.alignment ([] : Script α) = [] :=
  rfl

@[simp] theorem alignment_cons (edit : Edit α) (script : Script α) :
    Script.alignment (edit :: script) = uniform edit.action edit.items ++ script.alignment :=
  rfl

@[simp] theorem alignment_append (first second : Script α) :
    Script.alignment (first ++ second) = first.alignment ++ second.alignment :=
  List.flatMap_append

@[simp] theorem alignment_only (action : Action) (items : List α) :
    Script.alignment (Script.only action items) = uniform action items := by
  cases items <;> simp [Script.only]

@[simp] theorem alignment_reverse_only (action : Action) (items : List α) :
    Script.alignment (Script.only action items).reverse = uniform action items := by
  cases items <;> simp [Script.only]

theorem old_alignment (script : Script α) : Alignment.old script.alignment = script.old := by
  induction script with
  | nil => rfl
  | cons edit script ih => simp [ih, Script.old, Edit.old]

theorem new_alignment (script : Script α) : Alignment.new script.alignment = script.new := by
  induction script with
  | nil => rfl
  | cons edit script ih => simp [ih, Script.new, Edit.new]

theorem alignment_keepBefore (items : List α) (script : Script α) :
    Script.alignment (keepBefore items script) = uniform .keep items ++ script.alignment := by
  unfold keepBefore
  split <;> simp

theorem alignment_reverse_keepAfter (items : List α) (script : Script α) :
    Script.alignment (keepAfter items script).reverse =
      Script.alignment script.reverse ++ uniform .keep items := by
  unfold keepAfter
  split <;> simp

end Script

/-! ## Moving one edit -/

variable [DecidableEq α]

/-- What kept items and an edit behind them have in common is there only for an addition. -/
theorem exists_overlapBefore {near edit : Edit α}
    (some : (overlapBefore near.items edit).shared ≠ []) :
    edit.action = .add ∧ ∃ shared kept rest, overlapBefore near.items edit = ⟨shared, kept, rest⟩ ∧
      near.items = kept ++ shared ∧ edit.items = rest ++ shared := by
  unfold overlapBefore at some ⊢
  by_cases added : edit.action = .add
  · rw [if_pos added] at some ⊢
    exact ⟨added, _, _, _, rfl, (left_end _ _).symm, (right_end _ _).symm⟩
  · rw [if_neg added] at some
    have ends := right_end near.items ([] : List α)
    exact absurd (List.append_eq_nil_iff.mp ends).2 some

theorem exists_overlapAfter {near edit : Edit α}
    (some : (overlapAfter near.items edit).shared ≠ []) :
    edit.action = .add ∧ ∃ shared kept rest, overlapAfter near.items edit = ⟨shared, kept, rest⟩ ∧
      near.items = shared ++ kept ∧ edit.items = shared ++ rest := by
  unfold overlapAfter at some ⊢
  by_cases added : edit.action = .add
  · rw [if_pos added] at some ⊢
    exact ⟨added, _, _, _, rfl, (left_start _ _).symm, (right_start _ _).symm⟩
  · rw [if_neg added] at some
    have starts := right_start near.items ([] : List α)
    exact absurd (List.append_eq_nil_iff.mp starts).1 some

/-- An edit that is moved to the front rearranges the alignment. -/
theorem rearranged_moveFront (before : Script α) (edit : Edit α) (after : Script α)
    (changes : edit.action ≠ .keep) :
    Rearranged (Script.alignment (before.reverse ++ edit :: after))
      (Script.alignment (moveFront before edit after).script) := by
  fun_induction moveFront before edit after with
  | case1 edit after => exact .refl _
  | case2 edit after near far keeps overlap none empty ih =>
    simpa [empty] using ih changes
  | case3 => exact .refl _
  | case4 edit after near far keeps overlap some moved ih =>
    -- The addition comes to stand in front of the kept items that it ends with.
    obtain ⟨added, shared, kept, rest, cut, nearItems, editItems⟩ := exists_overlapBefore some
    have moves := (Move.forward shared rest).rearranged
      (Script.alignment far.reverse ++ uniform .keep kept) after.alignment
    have further := ih changes
    simp +zetaDelta only [cut] at further ⊢
    refine .trans ?_ further
    simpa [keeps, added, nearItems, editItems, Script.alignment_keepBefore] using moves
  | case5 edit after near far changed same ih =>
    -- Edits that join spell what they spelled apart.
    simpa [same] using ih changes
  | case6 edit after near far changed other ih =>
    have moves := (Move.cross near.action edit.action changed changes other near.items
      edit.items).rearranged (Script.alignment far.reverse) after.alignment
    refine .trans ?_ (ih changes)
    simpa using moves

/-- An edit that is moved to the back rearranges the alignment. -/
theorem rearranged_moveBack (before : Script α) (edit : Edit α) (after : Script α)
    (changes : edit.action ≠ .keep) :
    Rearranged (Script.alignment (before.reverse ++ edit :: after))
      (Script.alignment (moveBack before edit after).script) := by
  fun_induction moveBack before edit after with
  | case1 before edit => exact .refl _
  | case2 before edit near far keeps overlap none empty ih =>
    simpa [empty] using ih changes
  | case3 => exact .refl _
  | case4 before edit near far keeps overlap some moved ih =>
    -- The addition comes to stand behind the kept items that it starts with.
    obtain ⟨added, shared, kept, rest, cut, nearItems, editItems⟩ := exists_overlapAfter some
    have moves := (Move.backward shared rest).rearranged (Script.alignment before.reverse)
      (uniform .keep kept ++ Script.alignment far)
    have further := ih changes
    simp +zetaDelta only [cut] at further ⊢
    refine .trans ?_ further
    simpa [keeps, added, nearItems, editItems, Script.alignment_reverse_keepAfter] using moves
  | case5 before edit near far changed same ih =>
    simpa [same] using ih changes
  | case6 before edit near far changed other ih =>
    have moves := (Move.cross edit.action near.action changes changed (Ne.symm other) edit.items
      near.items).rearranged (Script.alignment before.reverse) (Script.alignment far)
    refine .trans ?_ (ih changes)
    simpa using moves

/-! ## Moving all edits -/

theorem action_moveFront (before : Script α) (edit : Edit α) (after : Script α) :
    (moveFront before edit after).edit.action = edit.action := by
  fun_induction moveFront before edit after with
  | case1 | case3 => rfl
  | case2 _ _ _ _ _ _ _ _ ih | case4 _ _ _ _ _ _ _ _ ih | case5 _ _ _ _ _ _ ih
  | case6 _ _ _ _ _ _ ih => exact ih

theorem rearranged_settle {action : Action} (changes : action ≠ .keep) (steps : Nat)
    (before after : Script α) :
    Rearranged (Script.alignment (before.reverse ++ after))
      (Script.alignment (settle action steps before after)) := by
  fun_induction settle action steps before after with
  | case1 => exact .refl _
  | case2 => simpa using Rearranged.refl _
  | case3 steps before edit after same front back ih =>
    have toFront := rearranged_moveFront before edit after (same ▸ changes)
    have toBack := rearranged_moveBack front.before front.edit front.after
      ((action_moveFront before edit after).trans same ▸ changes)
    refine toFront.trans (.trans toBack ?_)
    simpa [Focus.script] using ih
  | case4 steps before edit after other ih => simpa using ih

theorem rearranged_settleAll {action : Action} (changes : action ≠ .keep) (script : Script α) :
    Rearranged script.alignment (settleAll action script).alignment :=
  rearranged_settle changes _ [] script

/-- Tidying a script rearranges its alignment. -/
theorem rearranged_compact (script : Script α) :
    Rearranged script.alignment (compact script).alignment :=
  (rearranged_settleAll (by decide) script).trans (rearranged_settleAll (by decide) _)

/-! ## Reading changes off a script -/

theorem changes_append (first second : Alignment Text) :
    Alignment.changes (first ++ second) =
      Alignment.changes first ++ Alignment.changes second :=
  List.filterMap_append

theorem changes_uniform (action : Action) (lines : List Text) :
    Alignment.changes (uniform action lines) =
      match action with
      | .keep => []
      | .drop => (lines.map dropTerminator).map .removed
      | .add => (lines.map dropTerminator).map .added := by
  induction lines with
  | nil => cases action <;> rfl
  | cons line lines ih =>
    cases action <;> simp_all [Alignment.changes, Alignment.change?]

theorem removedLines_changes (alignment : Alignment Text) :
    removedLines alignment.changes = (alignment.only .drop).map dropTerminator := by
  induction alignment with
  | nil => rfl
  | cons mark alignment ih =>
    obtain ⟨action, line⟩ := mark
    cases action <;>
      simp_all [Alignment.changes, Alignment.change?, removedLines, Alignment.only,
        List.filterMap_cons]

theorem addedLines_changes (alignment : Alignment Text) :
    addedLines alignment.changes = (alignment.only .add).map dropTerminator := by
  induction alignment with
  | nil => rfl
  | cons mark alignment ih =>
    obtain ⟨action, line⟩ := mark
    cases action <;>
      simp_all [Alignment.changes, Alignment.change?, addedLines, Alignment.only,
        List.filterMap_cons]

/-- The changes read off a script are those of a rearrangement of its alignment. -/
theorem exists_changes (removed added : List Text) (script : Script Text) :
    ∃ alignment, Rearranged (uniform .drop removed ++ uniform .add added ++ script.alignment)
        alignment ∧
      Alignment.changes alignment =
        listChanges (removed.map dropTerminator) (added.map dropTerminator) script := by
  induction script generalizing removed added with
  | nil =>
    refine ⟨uniform .drop removed ++ uniform .add added, by simpa using Rearranged.refl _, ?_⟩
    simp [changes_append, changes_uniform, listChanges]
  | cons edit script ih =>
    obtain ⟨action, lines⟩ := edit
    cases action with
    | keep =>
      obtain ⟨alignment, rearranged, same⟩ := ih [] []
      refine ⟨uniform .drop removed ++ uniform .add added ++ uniform .keep lines ++ alignment,
        ?_, ?_⟩
      · have behind := rearranged.behind
          (uniform .drop removed ++ uniform .add added ++ uniform .keep lines)
        simpa using behind
      · simp [changes_append, changes_uniform, same, listChanges]
    | drop =>
      obtain ⟨alignment, rearranged, same⟩ := ih (removed ++ lines) added
      have moves := (Move.cross .add .drop (by decide) (by decide) (by decide) added
        lines).rearranged (uniform .drop removed) (Script.alignment script)
      refine ⟨alignment, .trans ?_ rearranged, ?_⟩
      · simpa using moves
      · simpa [listChanges] using same
    | add =>
      obtain ⟨alignment, rearranged, same⟩ := ih removed (added ++ lines)
      exact ⟨alignment, by simpa using rearranged, by simpa [listChanges] using same⟩

end ReleasePicker.Diff
