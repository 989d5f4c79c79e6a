import ReleasePicker.Options.Revision
import ReleasePicker.Proofs.Options.Revisions

/-!
A session forgets all its revisions but the last. What carries this is that a revision with at least
one entry leaves a content which no later revision can tell from the content before it (`Alike`):
the key line is the same, the first new entry has the indentation of the first old one, and the
lines below the block are the same. What each step of a session gives is therefore what it would
give on the content that the session started from.
-/
namespace ReleasePicker.Options

/-- No revision tells the two contents apart: each fails on both for the same reason, or gives both
the same content. -/
def Alike (now before : Text) : Prop :=
  ∀ values, (replaceEntries now values).map Revision.content =
    (replaceEntries before values).map Revision.content

theorem Alike.refl (content : Text) : Alike content content :=
  fun _ => rfl

theorem Alike.trans (first : Alike last middle) (second : Alike middle before) :
    Alike last before :=
  fun values => (first values).trans (second values)

/-- Entries written over entries that were just written are written over the old ones. -/
theorem Layout.withEntries_withEntries (layout : Layout) (filled : values ≠ []) (more : List Text) :
    (layout.withEntries values).withEntries more = layout.withEntries more := by
  obtain ⟨value, rest, rfl⟩ := List.exists_cons_of_ne_nil filled
  rfl

/-- A revision with entries leaves a content like the one before it. -/
theorem alike_contentAfter (content : Text) (filled : values ≠ []) :
    Alike (contentAfter content values) content := by
  unfold contentAfter
  cases replaced : replaceEntries content values with
  | error _ => exact .refl content
  | ok revision =>
    obtain ⟨layout, found, oneLine, rfl⟩ := replaceEntries_eq_ok_iff.mp replaced
    intro more
    dsimp only
    rw [replaceEntries_eq, replaceEntries_eq content, ofContent?_of_replaceEntries found oneLine,
      found]
    cases more.find? (·.any Text.breaksLine) with
    | some _ => rfl
    | none =>
      simp only [Except.map, Layout.revision]
      rw [layout.withEntries_withEntries filled]

theorem Alike.contentAfter_eq (alike : Alike now before)
    (accepted : (replaceEntries before values).isOk = true) :
    contentAfter now values = contentAfter before values := by
  have same := alike values
  unfold contentAfter
  cases first : replaceEntries before values with
  | error _ => simp [first, Except.isOk, Except.toBool] at accepted
  | ok revision =>
    cases second : replaceEntries now values with
    | error _ => simp [first, second, Except.map] at same
    | ok other => simpa [first, second, Except.map] using same

theorem Alike.isOk_eq (alike : Alike now before) (values : List Text) :
    (replaceEntries now values).isOk = (replaceEntries before values).isOk := by
  have same := alike values
  cases first : replaceEntries before values <;> cases second : replaceEntries now values <;>
    simp_all [Except.map, Except.isOk, Except.toBool]

theorem contentAfter_of_refused (refused : (replaceEntries content values).isOk = false) :
    contentAfter content values = content := by
  unfold contentAfter
  cases replaced : replaceEntries content values with
  | error _ => rfl
  | ok _ => simp [replaced, Except.isOk, Except.toBool] at refused

/-- Which steps of a session succeed does not depend on the steps before them. -/
theorem isOk_reviseEach (alike : Alike now content) (filled : ∀ values ∈ session, values ≠ []) :
    (reviseEach now session).map Except.isOk =
      session.map fun values => (replaceEntries content values).isOk := by
  induction session generalizing now with
  | nil => rfl
  | cons values rest ih =>
    have next := (alike_contentAfter now (filled values (by simp))).trans alike
    have below := ih next fun other member => filled other (by simp [member])
    simp only [reviseEach, List.map_cons, below, alike.isOk_eq values]

/-- The end of a session from any content like the first one: the last values that the first
content accepts decide, and without any nothing happens. -/
theorem contentAtEnd_of_alike (alike : Alike now content)
    (filled : ∀ values ∈ session, values ≠ []) :
    contentAtEnd now session =
      match (session.filter fun values => (replaceEntries content values).isOk).getLast? with
      | none => now
      | some values => contentAfter content values := by
  induction session generalizing now with
  | nil => rfl
  | cons values rest ih =>
    have next := (alike_contentAfter now (filled values (by simp))).trans alike
    have below := ih next fun other member => filled other (by simp [member])
    have step : contentAtEnd now (values :: rest) = contentAtEnd (contentAfter now values) rest :=
      rfl
    rw [step, below, List.filter_cons]
    by_cases accepted : (replaceEntries content values).isOk = true
    · rw [if_pos accepted, List.getLast?_cons, alike.contentAfter_eq accepted]
      cases (rest.filter fun values => (replaceEntries content values).isOk).getLast? <;> rfl
    · have refused := (alike.isOk_eq values).trans (by simpa using accepted)
      rw [if_neg accepted, contentAfter_of_refused refused]

/-- The values of the last step of a session that succeeds. -/
def lastAccepted (content : Text) (session : List (List Text)) : Option (List Text) :=
  (((session.zip (reviseEach content session)).filter fun step => step.2.isOk).getLast?).map
    Prod.fst

private theorem filter_zip {items : List α} {results : List β} {answer : β → Bool}
    {expected : α → Bool} (same : results.map answer = items.map expected) :
    ((items.zip results).filter fun step => answer step.2).map Prod.fst =
      items.filter expected := by
  induction items generalizing results with
  | nil => rfl
  | cons item items ih =>
    cases results with
    | nil => cases same
    | cons result results =>
      simp only [List.map_cons, List.cons.injEq] at same
      have below := ih same.2
      simp only [List.zip_cons_cons, List.filter_cons, same.1]
      split <;> simp [below]

/-- **The last revision wins.** Whether a step of a session succeeds depends on the first content
and its own values alone, and the content at the end is what the last successful step makes of the
first content. -/
theorem session_last_wins (content : Text) (session : List (List Text))
    (filled : ∀ values ∈ session, values ≠ []) :
    (reviseEach content session).map Except.isOk =
        (session.map fun values => (replaceEntries content values).isOk) ∧
      match lastAccepted content session with
      | none => contentAtEnd content session = content
      | some values => ∃ revision, replaceEntries content values = .ok revision ∧
          contentAtEnd content session = revision.content := by
  have succeeded := isOk_reviseEach (.refl content) filled
  refine ⟨succeeded, ?_⟩
  have atEnd := contentAtEnd_of_alike (.refl content) filled
  rw [lastAccepted, ← List.getLast?_map, filter_zip succeeded]
  cases last : (session.filter fun values => (replaceEntries content values).isOk).getLast? with
  | none => rwa [last] at atEnd
  | some values =>
    rw [last] at atEnd
    have accepted := (List.mem_filter.mp (List.mem_of_getLast? last)).2
    cases replaced : replaceEntries content values with
    | error _ => simp [replaced, Except.isOk, Except.toBool] at accepted
    | ok revision =>
      refine ⟨revision, replaced, ?_⟩
      simp only [atEnd, contentAfter, replaced]

/-- A carriage return and a line feed are refused, and the last step that is not refused counts. -/
theorem session_last_wins_refused :
    (∀ values ∈ [["a".toList], ["\r".toList], ["b'".toList], ["\n".toList]], values ≠ []) ∧
      (reviseEach "options:\nx\n".toList
        [["a".toList], ["\r".toList], ["b'".toList], ["\n".toList]]).map Except.isOk =
          [true, false, true, false] ∧
      contentAtEnd "options:\nx\n".toList
        [["a".toList], ["\r".toList], ["b'".toList], ["\n".toList]] =
          "options:\n  - 'b'''\nx\n".toList := by
  have filled : ∀ values ∈ [["a".toList], ["\r".toList], ["b'".toList], ["\n".toList]],
      values ≠ [] := by
    simp
  obtain ⟨succeeded, revision, replaced, last⟩ := session_last_wins "options:\nx\n".toList _ filled
  cases replaced
  exact ⟨filled, succeeded, last⟩

end ReleasePicker.Options
