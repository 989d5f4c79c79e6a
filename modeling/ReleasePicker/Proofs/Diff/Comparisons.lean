import ReleasePicker.Proofs.Diff.SplitLines
import ReleasePicker.Proofs.Diff.Tidying

/-!
A script spells the lists that it was made for (`spells_compare`), so the changes that are listed
for two texts are those of an alignment of their lines (`exists_alignment`). Where two lists have a
front and a back in common, and these end and start with an item unlike all items between them, all
changes lie between them (`exists_framed`).
-/
namespace ReleasePicker.Diff

open ReleasePicker.Diff.Alignment (Rearranged Framed uniform)

variable {α : Type}

/-! ## Scripts spell both lists -/

/-- A script leads from one list to the other. -/
def Script.Spells (script : Script α) (left right : List α) : Prop :=
  script.old = left ∧ script.new = right

namespace Script.Spells

variable {left right items more : List α} {first second : Script α}

theorem append (start : Script.Spells first left right) (rest : Script.Spells second items more) :
    Script.Spells (first ++ second) (left ++ items) (right ++ more) := by
  obtain ⟨rfl, rfl⟩ := start
  obtain ⟨rfl, rfl⟩ := rest
  exact ⟨List.flatMap_append, List.flatMap_append⟩

theorem keep (items : List α) : Script.Spells (Script.only .keep items) items items :=
  ⟨Script.old_only .keep items, Script.new_only .keep items⟩

theorem replace (left right : List α) :
    Script.Spells (Script.only .drop left ++ Script.only .add right) left right := by
  have drops : Script.Spells (Script.only .drop left) left [] :=
    ⟨Script.old_only .drop left, Script.new_only .drop left⟩
  have adds : Script.Spells (Script.only .add right) [] right :=
    ⟨Script.old_only .add right, Script.new_only .add right⟩
  simpa using drops.append adds

theorem alignment (spells : Script.Spells first left right) :
    Alignment.old first.alignment = left ∧ Alignment.new first.alignment = right :=
  ⟨(Script.old_alignment first).trans spells.1, (Script.new_alignment first).trans spells.2⟩

end Script.Spells

variable [DecidableEq α]

/-- The script for what lies between the common ends of two lists. -/
def compareBetween (left right : List α) : Script α :=
  match cut? left right with
  | none => Script.only .drop left ++ Script.only .add right
  | some (i, j) =>
    compare (left.take i) (right.take j) ++ compare (left.drop i) (right.drop j)

theorem compare_eq (left right : List α) :
    compare left right =
      let front := commonStart left right
      let back := commonEnd front.left front.right
      Script.only .keep front.shared ++ compareBetween back.left back.right ++
        Script.only .keep back.shared := by
  rw [compare]
  unfold compareBetween
  dsimp only
  split <;> rename_i cut <;> rw [cut]

theorem spells_compareBetween {left right : List α}
    (cut : ∀ i j, cut? left right = some (i, j) →
      (compare (left.take i) (right.take j)).Spells (left.take i) (right.take j) ∧
        (compare (left.drop i) (right.drop j)).Spells (left.drop i) (right.drop j)) :
    (compareBetween left right).Spells left right := by
  unfold compareBetween
  split
  · exact .replace left right
  · rename_i i j known
    obtain ⟨upper, lower⟩ := cut i j known
    simpa using upper.append lower

/-- A script spells the lists that it was made for. -/
theorem spells_compare (left right : List α) : (compare left right).Spells left right := by
  -- Both halves of a cut are shorter than what lies between the common ends.
  induction size : left.length + right.length using Nat.strongRecOn generalizing left right with
  | ind size ih =>
    have leftStart := left_start left right
    have rightStart := right_start left right
    have whole := length_between left right
    rw [compare_eq]
    dsimp only at whole ⊢
    generalize commonStart left right = front at *
    have leftEnd := left_end front.left front.right
    have rightEnd := right_end front.left front.right
    generalize commonEnd front.left front.right = back at *
    have between : (compareBetween back.left back.right).Spells back.left back.right := by
      refine spells_compareBetween fun i j cut => ?_
      have shorter := cut?_shortens cut
      exact ⟨ih _ (by omega) _ _ rfl, ih _ (by omega) _ _ rfl⟩
    have spells := ((Script.Spells.keep front.shared).append between).append (.keep back.shared)
    have leftWhole : front.shared ++ back.left ++ back.shared = left := by
      rw [List.append_assoc, leftEnd, leftStart]
    have rightWhole : front.shared ++ back.right ++ back.shared = right := by
      rw [List.append_assoc, rightEnd, rightStart]
    rwa [leftWhole, rightWhole] at spells

/-! ## Where the changes lie -/

theorem commonStart_append (front left right : List α) :
    commonStart (front ++ left) (front ++ right) =
      { commonStart left right with shared := front ++ (commonStart left right).shared } := by
  induction front with
  | nil => rfl
  | cons item front ih => simp [commonStart, ih]

theorem commonEnd_append (left right back : List α) :
    commonEnd (left ++ back) (right ++ back) =
      { commonEnd left right with shared := (commonEnd left right).shared ++ back } := by
  simp [commonEnd, commonStart_append]

/-- Different lists of items of one kind go on differently before items of another kind follow. -/
theorem exists_commonStart {isInner : α → Prop} {left right back : List α}
    (leftInner : ∀ item ∈ left, isInner item) (rightInner : ∀ item ∈ right, isInner item)
    (stop : ∀ item ∈ back.head?, ¬ isInner item) (different : left ≠ right) :
    ∃ shared leftRest rightRest, left = shared ++ leftRest ∧ right = shared ++ rightRest ∧
      commonStart (left ++ back) (right ++ back) =
        ⟨shared, leftRest ++ back, rightRest ++ back⟩ := by
  induction left generalizing right with
  | nil =>
    refine ⟨[], [], right, rfl, rfl, ?_⟩
    cases back with
    | nil => simp [commonStart]
    | cons last back =>
      cases right with
      | nil => exact absurd rfl different
      | cons item right =>
        have other : last ≠ item := by
          rintro rfl
          exact stop last rfl (rightInner last (by simp))
        simp [commonStart, other]
  | cons item left ih =>
    cases right with
    | nil =>
      refine ⟨[], item :: left, [], rfl, rfl, ?_⟩
      cases back with
      | nil => simp [commonStart]
      | cons last back =>
        have other : item ≠ last := by
          rintro rfl
          exact stop item rfl (leftInner item (by simp))
        simp [commonStart, other]
    | cons more right =>
      by_cases same : item = more
      · subst same
        obtain ⟨shared, leftRest, rightRest, rfl, rfl, starts⟩ :=
          ih (List.forall_mem_of_forall_mem_cons leftInner)
            (List.forall_mem_of_forall_mem_cons rightInner) (by simpa using different)
        refine ⟨item :: shared, leftRest, rightRest, rfl, rfl, ?_⟩
        rw [List.cons_append, List.cons_append, commonStart, if_pos rfl, starts]
      · exact ⟨[], item :: left, more :: right, rfl, rfl, by simp [commonStart, same]⟩

/-- Where two lists differ in items of one kind only and another kind follows, nothing else is
changed from one to the other. -/
theorem framed_compare {isInner : α → Prop} (front : List α) {left right back : List α}
    (leftInner : ∀ item ∈ left, isInner item) (rightInner : ∀ item ∈ right, isInner item)
    (stop : ∀ item ∈ back.head?, ¬ isInner item) (different : left ≠ right) :
    Framed isInner front back
      (compare (front ++ left ++ back) (front ++ right ++ back)).alignment := by
  obtain ⟨shared, leftRest, rightRest, rfl, rfl, starts⟩ :=
    exists_commonStart leftInner rightInner stop different
  rw [compare_eq, List.append_assoc front, List.append_assoc front, commonStart_append, starts]
  dsimp only
  rw [commonEnd_append]
  have leftEnd := left_end leftRest rightRest
  have rightEnd := right_end leftRest rightRest
  generalize commonEnd leftRest rightRest = ends at *
  have spells : (compareBetween ends.left ends.right).Spells ends.left ends.right :=
    spells_compareBetween fun i j _ => ⟨spells_compare _ _, spells_compare _ _⟩
  refine ⟨uniform .keep shared ++ (compareBetween ends.left ends.right).alignment ++
    uniform .keep ends.shared, by simp, ?_⟩
  intro mark member
  rw [List.append_assoc] at member
  rcases List.mem_append.mp member with member | member
  · exact leftInner mark.2 (by simp [(Alignment.mem_uniform.mp member).2])
  rcases List.mem_append.mp member with member | member
  · rcases Alignment.mem_old_or_new member with member | member
    · rw [spells.alignment.1] at member
      exact leftInner mark.2 (by simp [← leftEnd, member])
    · rw [spells.alignment.2] at member
      exact rightInner mark.2 (by simp [← rightEnd, member])
  · exact leftInner mark.2 (by simp [← leftEnd, (Alignment.mem_uniform.mp member).2])

/-! ## Texts -/

/-- The changes that are listed for two texts are those of an alignment of their lines, which is a
rearrangement of what the comparison found. -/
theorem exists_alignment {old new : Text} (different : old ≠ new) :
    ∃ alignment,
      Rearranged (compare (splitLines old) (splitLines new)).alignment alignment ∧
        Alignment.changes alignment = changedLines old new := by
  obtain ⟨alignment, rearranged, same⟩ :=
    exists_changes [] [] (compact (compare (splitLines old) (splitLines new)))
  refine ⟨alignment, (rearranged_compact _).trans (by simpa using rearranged), ?_⟩
  rw [changedLines, if_neg different, same]
  rfl

/-- Where two texts differ in lines of one kind only and other kinds of lines stand around them,
the changes that are listed are those of an alignment of the lines of the one kind. -/
theorem exists_inner {old new : Text} {isInner : Text → Prop} {front left right back : List Text}
    (oldLines : splitLines old = front ++ left ++ back)
    (newLines : splitLines new = front ++ right ++ back)
    (leftInner : ∀ line ∈ left, isInner line) (rightInner : ∀ line ∈ right, isInner line)
    (frontStops : ∀ line ∈ front.getLast?, ¬ isInner line)
    (backStops : ∀ line ∈ back.head?, ¬ isInner line) :
    ∃ alignment : Alignment Text, alignment.old = left ∧ alignment.new = right ∧
      Alignment.changes alignment = changedLines old new := by
  by_cases same : old = new
  · have sides : left = right := by
      subst same
      simpa using oldLines.symm.trans newLines
    refine ⟨uniform .keep left, by simp, by simp [sides], ?_⟩
    rw [changedLines, if_pos same, changes_uniform]
  · have different : left ≠ right := by
      rintro rfl
      apply same
      rw [← flatten_splitLines old, oldLines, ← newLines, flatten_splitLines]
    obtain ⟨alignment, rearranged, changes⟩ := exists_alignment same
    rw [oldLines, newLines] at rearranged
    have spells := (spells_compare (front ++ left ++ back) (front ++ right ++ back)).alignment
    have framed := framed_compare front leftInner rightInner backStops different
    obtain ⟨inner, rfl, -⟩ := framed.of_rearranged frontStops backStops rearranged
    obtain ⟨sameOld, sameNew⟩ := rearranged.spells
    have innerOld := sameOld.trans spells.1
    have innerNew := sameNew.trans spells.2
    refine ⟨inner, by simpa using innerOld, by simpa using innerNew, ?_⟩
    rw [← changes, changes_append, changes_append, changes_uniform, changes_uniform]
    simp

end ReleasePicker.Diff
