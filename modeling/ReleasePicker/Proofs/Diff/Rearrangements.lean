import Mathlib
import ReleasePicker.Diff.Alignment

/-!
What tidying does to an alignment. It comes to steps of two kinds (`Move`): removals and additions
that stand side by side change places, and additions change places with kept items in front of them
or behind them. No step changes either list, and no step takes a kept item anywhere unless an
addition of the same item is at hand. So a part of an alignment in which nothing has changed and
that starts or ends with an item unlike all changed ones stays in its place (`Framed`).
-/
namespace ReleasePicker.Diff

variable {α : Type}

namespace Alignment

/-! ## Parts of alignments -/

@[simp] theorem uniform_nil (action : Action) : uniform action ([] : List α) = [] :=
  rfl

@[simp] theorem uniform_cons (action : Action) (item : α) (items : List α) :
    uniform action (item :: items) = (action, item) :: uniform action items :=
  rfl

@[simp] theorem uniform_append (action : Action) (left right : List α) :
    uniform action (left ++ right) = uniform action left ++ uniform action right :=
  List.map_append

@[simp] theorem mem_uniform {action : Action} {items : List α} {mark : Action × α} :
    mark ∈ uniform action items ↔ mark.1 = action ∧ mark.2 ∈ items := by
  obtain ⟨fate, item⟩ := mark
  simp only [uniform, List.mem_map, Prod.mk.injEq]
  constructor
  · rintro ⟨_, member, rfl, rfl⟩
    exact ⟨rfl, member⟩
  · rintro ⟨rfl, member⟩
    exact ⟨item, member, rfl, rfl⟩

@[simp] theorem old_append (first second : Alignment α) :
    old (first ++ second) = old first ++ old second := by
  simp [old]

@[simp] theorem new_append (first second : Alignment α) :
    new (first ++ second) = new first ++ new second := by
  simp [new]

@[simp] theorem old_uniform (action : Action) (items : List α) :
    old (uniform action items) = if action = .add then [] else items := by
  cases action <;> simp [old, uniform, List.filter_map, Function.comp_def]

@[simp] theorem new_uniform (action : Action) (items : List α) :
    new (uniform action items) = if action = .drop then [] else items := by
  cases action <;> simp [new, uniform, List.filter_map, Function.comp_def]

theorem mem_old_or_new {alignment : Alignment α} {mark : Action × α}
    (member : mark ∈ alignment) : mark.2 ∈ alignment.old ∨ mark.2 ∈ alignment.new := by
  obtain ⟨action, item⟩ := mark
  have fate : action ≠ .add ∨ action ≠ .drop := by
    cases action <;> simp
  rcases fate with kept | kept
  · exact .inl (List.mem_map.mpr ⟨_, List.mem_filter.mpr ⟨member, by simpa using kept⟩, rfl⟩)
  · exact .inr (List.mem_map.mpr ⟨_, List.mem_filter.mpr ⟨member, by simpa using kept⟩, rfl⟩)

theorem only_drop_sublist (alignment : Alignment α) :
    (alignment.only .drop).Sublist alignment.old := by
  refine List.Sublist.map _ (List.monotone_filter_right _ fun mark dropped => ?_)
  simp_all

theorem only_add_sublist (alignment : Alignment α) :
    (alignment.only .add).Sublist alignment.new := by
  refine List.Sublist.map _ (List.monotone_filter_right _ fun mark added => ?_)
  simp_all

/-! ## Steps -/

/-- Neighbouring parts of an alignment that change places. -/
inductive Move : Alignment α → Alignment α → Prop where
  /-- Changes of different kinds. -/
  | cross (near : Action) (far : Action) (nearChanges : near ≠ .keep) (farChanges : far ≠ .keep)
      (other : near ≠ far) (left right : List α) :
      Move (uniform near left ++ uniform far right) (uniform far right ++ uniform near left)
  /-- Kept items and an addition behind them that ends as they do. -/
  | forward (shared rest : List α) :
      Move (uniform .keep shared ++ uniform .add (rest ++ shared))
        (uniform .add (shared ++ rest) ++ uniform .keep shared)
  /-- Kept items and an addition in front of them that starts as they do. -/
  | backward (shared rest : List α) :
      Move (uniform .add (shared ++ rest) ++ uniform .keep shared)
        (uniform .keep shared ++ uniform .add (rest ++ shared))

variable {first second : Alignment α}

theorem Move.old_eq (move : Move first second) : old second = old first := by
  cases move with
  | cross near far nearChanges farChanges other left right =>
    cases near <;> cases far <;> simp_all
  | forward | backward => simp

theorem Move.new_eq (move : Move first second) : new second = new first := by
  cases move with
  | cross near far nearChanges farChanges other left right =>
    cases near <;> cases far <;> simp_all
  | forward | backward => simp

/-- Whatever moves is changed, or is like an item that is. -/
theorem Move.exists_changed (move : Move first second) {mark : Action × α}
    (member : mark ∈ first ∨ mark ∈ second) :
    ∃ changed ∈ first, changed.1 ≠ .keep ∧ changed.2 = mark.2 := by
  cases move with
  | cross near far nearChanges farChanges other left right =>
    have member : mark ∈ uniform near left ++ uniform far right := by
      simpa [or_comm] using member
    refine ⟨mark, member, ?_, rfl⟩
    rcases List.mem_append.mp member with member | member <;> rw [(mem_uniform.mp member).1]
    · exact nearChanges
    · exact farChanges
  | forward shared rest | backward shared rest =>
    have member : mark.2 ∈ shared ∨ mark.2 ∈ rest := by
      simp only [List.mem_append, mem_uniform] at member
      tauto
    exact ⟨(.add, mark.2), by simpa [or_comm] using member, by simp, rfl⟩

/-- Nothing moves unless something changed is among it. -/
theorem Move.nil_or_changes (move : Move first second) :
    (first = [] ∧ second = []) ∨ ∃ mark ∈ first, mark.1 ≠ .keep := by
  rcases List.eq_nil_or_concat first with rfl | ⟨init, last, rfl⟩
  · have none : second = [] := by
      rw [List.eq_nil_iff_forall_not_mem]
      intro mark member
      obtain ⟨_, inside, -⟩ := move.exists_changed (.inr member)
      cases inside
    exact .inl ⟨rfl, none⟩
  · have moved : last ∈ init.concat last := by simp
    obtain ⟨changed, inside, changes, -⟩ := move.exists_changed (.inl moved)
    exact .inr ⟨changed, inside, changes⟩

/-- A step somewhere in an alignment. -/
inductive Step : Alignment α → Alignment α → Prop where
  | within (before : Alignment α) (move : Move part moved) (after : Alignment α) :
      Step (before ++ part ++ after) (before ++ moved ++ after)

/-- Alignments that steps lead from one to the other. -/
def Rearranged (first second : Alignment α) : Prop :=
  Relation.ReflTransGen Step first second

theorem Rearranged.refl (alignment : Alignment α) : Rearranged alignment alignment :=
  Relation.ReflTransGen.refl

theorem Rearranged.trans {third : Alignment α} (start : Rearranged first second)
    (rest : Rearranged second third) : Rearranged first third :=
  Relation.ReflTransGen.trans start rest

theorem Move.rearranged (move : Move first second) (before after : Alignment α) :
    Rearranged (before ++ first ++ after) (before ++ second ++ after) :=
  Relation.ReflTransGen.single (.within before move after)

theorem Rearranged.behind (rearranged : Rearranged first second) (before : Alignment α) :
    Rearranged (before ++ first) (before ++ second) := by
  induction rearranged with
  | refl => exact Relation.ReflTransGen.refl
  | tail _ step ih =>
    obtain ⟨left, move, right⟩ := step
    exact ih.tail (by simpa using Step.within (before ++ left) move right)

/-- Neither list changes. -/
theorem Rearranged.spells (rearranged : Rearranged first second) :
    old second = old first ∧ new second = new first := by
  induction rearranged with
  | refl => exact ⟨rfl, rfl⟩
  | tail _ step ih =>
    obtain ⟨before, move, after⟩ := step
    simpa [move.old_eq, move.new_eq] using ih

/-! ## What stays in its place -/

/-- An alignment that keeps a front and a back, and has nothing but items of one kind between
them. -/
def Framed (isInner : α → Prop) (front back : List α) (alignment : Alignment α) : Prop :=
  ∃ inner, alignment = uniform .keep front ++ inner ++ uniform .keep back ∧
    ∀ mark ∈ inner, isInner mark.2

section

variable {isInner : α → Prop} {front back : List α}

theorem Framed.of_changed (framed : Framed isInner front back first) {mark : Action × α}
    (member : mark ∈ first) (changed : mark.1 ≠ .keep) : isInner mark.2 := by
  obtain ⟨inner, rfl, within⟩ := framed
  simp only [List.mem_append, mem_uniform, changed, false_and, or_false, false_or] at member
  exact within mark member

/-- A front that ends with an item of another kind ends before a part with a change and nothing but
items of the one kind. -/
theorem exists_of_prefix {before part rest below : Alignment α}
    (stop : ∀ item ∈ front.getLast?, ¬ isInner item) (changes : ∃ mark ∈ part, mark.1 ≠ .keep)
    (within : ∀ mark ∈ part, isInner mark.2)
    (same : before ++ (part ++ rest) = uniform .keep front ++ below) :
    ∃ more, before = uniform .keep front ++ more ∧ below = more ++ (part ++ rest) := by
  obtain ⟨changed, member, changes⟩ := changes
  obtain ⟨more, frontEnds, partStarts⟩ | ⟨more, whole, left⟩ := List.append_eq_append_iff.mp same
  · rcases List.eq_nil_or_concat more with rfl | ⟨init, last, rfl⟩
    · exact ⟨[], by simpa using frontEnds.symm, by simpa using partStarts.symm⟩
    · -- The front would reach into the part, and so end with an item of its, or hold all of it.
      exfalso
      obtain ⟨_, holds, -⟩ | ⟨_, holds, -⟩ := List.append_eq_append_iff.mp partStarts
      · have kept : changed ∈ uniform .keep front := by
          rw [frontEnds, holds]
          simp [member]
        exact changes (mem_uniform.mp kept).1
      · have final : front.getLast? = some last.2 := by
          have ends := congrArg (fun alignment => (alignment.map Prod.snd).getLast?) frontEnds
          simpa [uniform, Function.comp_def] using ends
        exact stop last.2 final (within last (by rw [holds]; simp))
  · exact ⟨more, whole, left⟩

/-- The same for a back that starts with an item of another kind. -/
theorem exists_of_suffix {before part rest above : Alignment α}
    (stop : ∀ item ∈ back.head?, ¬ isInner item) (changes : ∃ mark ∈ part, mark.1 ≠ .keep)
    (within : ∀ mark ∈ part, isInner mark.2)
    (same : before ++ part ++ rest = above ++ uniform .keep back) :
    ∃ more, rest = more ++ uniform .keep back ∧ above = before ++ part ++ more := by
  have mirrored := congrArg List.reverse same
  have turned (items : List α) :
      (uniform .keep items).reverse = uniform .keep items.reverse := by
    simp [uniform]
  simp only [List.reverse_append, turned] at mirrored
  have endStop : ∀ item ∈ back.reverse.getLast?, ¬ isInner item := by simpa using stop
  have changesWithin : ∃ mark ∈ part.reverse, mark.1 ≠ .keep := by simpa using changes
  obtain ⟨more, whole, left⟩ :=
    exists_of_prefix endStop changesWithin (by simpa using within) mirrored
  refine ⟨more.reverse, ?_, ?_⟩
  · simpa [turned] using congrArg List.reverse whole
  · simpa using congrArg List.reverse left

section

variable (frontStops : ∀ item ∈ front.getLast?, ¬ isInner item)
  (backStops : ∀ item ∈ back.head?, ¬ isInner item)

include frontStops backStops

/-- A part with a change and nothing but items of the one kind stands between the front and the
back, and whatever items of that kind take its place stand there as well. -/
theorem Framed.replace {before part after other : Alignment α}
    (framed : Framed isInner front back (before ++ part ++ after))
    (changes : ∃ mark ∈ part, mark.1 ≠ .keep) (partInner : ∀ mark ∈ part, isInner mark.2)
    (otherInner : ∀ mark ∈ other, isInner mark.2) :
    Framed isInner front back (before ++ other ++ after) := by
  obtain ⟨inner, whole, within⟩ := framed
  obtain ⟨above, rfl, rest⟩ := exists_of_prefix frontStops changes partInner (by simpa using whole)
  obtain ⟨below, rfl, rfl⟩ :=
    exists_of_suffix backStops changes partInner (by simpa using rest.symm)
  refine ⟨above ++ other ++ below, by simp, ?_⟩
  intro mark member
  simp only [List.mem_append, or_assoc] at member within
  rcases member with member | member | member
  · exact within mark (by simp [member])
  · exact otherInner mark member
  · exact within mark (by simp [member])

theorem Framed.of_step (framed : Framed isInner front back first) (step : Step first second) :
    Framed isInner front back second := by
  obtain @⟨left, right, before, move, after⟩ := step
  -- Everything that moves is like something changed, and so of the one kind.
  have within : ∀ mark, mark ∈ left ∨ mark ∈ right → isInner mark.2 := by
    intro mark member
    obtain ⟨changed, inside, changes, same⟩ := move.exists_changed member
    exact same ▸ framed.of_changed (by simp [inside]) changes
  rcases move.nil_or_changes with ⟨rfl, rfl⟩ | changes
  · exact framed
  · exact framed.replace frontStops backStops changes
      (fun mark member => within mark (.inl member)) (fun mark member => within mark (.inr member))

/-- A front and a back of another kind stay in their places. -/
theorem Framed.of_rearranged (framed : Framed isInner front back first)
    (rearranged : Rearranged first second) : Framed isInner front back second := by
  induction rearranged with
  | refl => exact framed
  | tail _ step framed => exact framed.of_step frontStops backStops step

end

end

end Alignment

end ReleasePicker.Diff
