import ReleasePicker.Files.WellFormed
import Mathlib.Data.List.Basic

/-!
The path of a location names the location: cut at its slashes it gives the names back, it ends in
the last of them, and the path of another name beside it is the path of the location beside it.
-/
namespace ReleasePicker

theorem parts_of_not_mem [DecidableEq α] {separator : α} {part : List α}
    (clean : separator ∉ part) : parts separator part = [part] := by
  induction part with
  | nil => rfl
  | cons item part ih =>
    simp only [List.mem_cons, not_or] at clean
    rw [parts, if_neg (Ne.symm clean.1), ih clean.2]

theorem parts_append [DecidableEq α] {separator : α} {part : List α} (clean : separator ∉ part)
    (rest : List α) :
    parts separator (part ++ separator :: rest) = part :: parts separator rest := by
  induction part with
  | nil => simp [parts]
  | cons item part ih =>
    simp only [List.mem_cons, not_or] at clean
    rw [List.cons_append, parts, if_neg (Ne.symm clean.1), ih clean.2]

theorem parts_ne_nil [DecidableEq α] (separator : α) (items : List α) :
    parts separator items ≠ [] := by
  cases items with
  | nil => simp [parts]
  | cons item rest =>
    rw [parts]
    split
    · simp
    · split <;> simp

/-- Parts in front of a separator and parts behind it are cut apart on their own. -/
theorem parts_append_separator [DecidableEq α] (separator : α) (front rest : List α) :
    parts separator (front ++ separator :: rest) =
      parts separator front ++ parts separator rest := by
  induction front with
  | nil => simp [parts]
  | cons item front ih =>
    rw [List.cons_append, parts, parts, ih]
    by_cases here : item = separator
    · simp [here]
    · rw [if_neg here, if_neg here]
      obtain ⟨part, more, split⟩ := List.exists_cons_of_ne_nil (parts_ne_nil separator front)
      rw [split]
      rfl

theorem not_mem_of_mem_parts [DecidableEq α] {separator : α} {items part : List α}
    (member : part ∈ parts separator items) : separator ∉ part := by
  induction items generalizing part with
  | nil => simp_all [parts]
  | cons item rest ih =>
    rw [parts] at member
    by_cases here : item = separator
    · rw [if_pos here] at member
      rcases List.mem_cons.mp member with rfl | member
      · simp
      · exact ih member
    · rw [if_neg here] at member
      obtain ⟨first, more, split⟩ := List.exists_cons_of_ne_nil (parts_ne_nil separator rest)
      rw [split] at member ih
      rcases List.mem_cons.mp member with rfl | member
      · simpa [Ne.symm here] using ih List.mem_cons_self
      · exact ih (List.mem_cons_of_mem first member)

namespace Files

theorem checkPath_eq_ok_iff {path : Bytes} :
    FileTree.checkPath path = .ok () ↔ 0 ∉ path ∧ path ≠ [] ∧ path.length ≤ longestPath := by
  unfold FileTree.checkPath
  split_ifs with zero empty long
  · simp [zero]
  · simp [empty]
  · simp only [false_iff]
    omega
  · simp only [true_iff]
    exact ⟨zero, empty, by omega⟩

theorem plain_concat {parent : Location} {name : Name} (inside : ∀ other ∈ parent, IsName other)
    (plain : IsPlain name) : ∀ other ∈ parent ++ [name], IsPlain other := by
  intro other member
  rcases List.mem_append.mp member with member | member
  · exact (inside other member).1
  · exact List.mem_singleton.mp member ▸ plain

theorem path_concat (parent : Location) (name : Name) :
    Location.path (parent ++ [name]) = parent.flatMap (slash :: ·) ++ slash :: name := by
  simp [Location.path]

private theorem parts_names {name : Name} {rest : Location}
    (clean : ∀ other ∈ name :: rest, slash ∉ other) :
    parts slash (name ++ rest.flatMap (slash :: ·)) = name :: rest := by
  induction rest generalizing name with
  | nil => simpa using parts_of_not_mem (clean name (by simp))
  | cons next rest ih =>
    have below := @ih next fun other member => clean other (List.mem_cons_of_mem name member)
    rw [List.flatMap_cons, List.cons_append, parts_append (clean name (by simp)), below]

theorem parts_path {location : Location} (named : location ≠ [])
    (clean : ∀ name ∈ location, slash ∉ name) :
    parts slash location.path = [] :: location := by
  cases location with
  | nil => exact absurd rfl named
  | cons name rest =>
    have whole : Location.path (name :: rest) =
        [] ++ slash :: (name ++ rest.flatMap (slash :: ·)) := by
      simp [Location.path]
    rw [whole, parts_append (by simp), parts_names clean]

theorem endsInSlash_path {location : Location} (named : location ≠ [])
    (plain : ∀ name ∈ location, IsPlain name) : endsInSlash location.path = false := by
  obtain ⟨parent, name, rfl⟩ := (List.eq_nil_or_concat' location).resolve_left named
  obtain ⟨written, -, -, clean⟩ := plain name (by simp)
  obtain ⟨front, last, rfl⟩ := (List.eq_nil_or_concat' name).resolve_left written
  have other : last ≠ slash := by
    rintro rfl
    simp at clean
  have whole : Location.path (parent ++ [front ++ [last]]) =
      (parent.flatMap (slash :: ·) ++ slash :: front) ++ [last] := by
    simp [path_concat]
  rw [whole, endsInSlash, List.getLast?_concat]
  simpa using other

theorem pathNames_path {location : Location} (named : location ≠ [])
    (plain : ∀ name ∈ location, IsPlain name) : pathNames location.path = location := by
  rw [pathNames, parts_path named fun name member => (plain name member).2.2.2]
  simp only [List.filter_cons, List.isEmpty_nil, Bool.not_true, Bool.false_eq_true, if_false]
  rw [List.filter_eq_self]
  intro name member
  simpa using (plain name member).1

/-! ## The name beside -/

theorem dropIdle_of_plain {names : List Name} (plain : ∀ name ∈ names, IsPlain name) :
    dropIdle names = names := by
  rcases List.eq_nil_or_concat' names with rfl | ⟨above, name, rfl⟩
  · rfl
  · obtain ⟨written, single, -, -⟩ := plain name (by simp)
    simp [dropIdle, written, single]

theorem anchored_path {location : Location} (named : location ≠ [])
    (plain : ∀ name ∈ location, IsPlain name) : anchored location.path = (.root, location) := by
  rw [anchored, parts_path named fun name member => (plain name member).2.2.2]
  simp [named]

theorem fileName?_path {parent : Location} {name : Name}
    (plain : ∀ other ∈ parent ++ [name], IsPlain other) :
    fileName? (Location.path (parent ++ [name])) = some name := by
  have up : name ≠ dotDot := (plain name (by simp)).2.2.1
  rw [fileName?, anchored_path (by simp) plain, dropIdle_of_plain plain]
  simp [up]

private theorem joinNames_cons (name : Name) (rest : Location) :
    joinNames (name :: rest) = name ++ rest.flatMap (slash :: ·) := by
  induction rest generalizing name with
  | nil => simp [joinNames]
  | cons next rest ih => rw [joinNames, ih]; simp; simp

theorem siblingPath_path {parent : Location} {name : Name}
    (plain : ∀ other ∈ parent ++ [name], IsPlain other) (other : Name) :
    siblingPath (Location.path (parent ++ [name])) other = Location.path (parent ++ [other]) := by
  have above : parentPath (Location.path (parent ++ [name])) = slash :: joinNames parent := by
    rw [parentPath, anchored_path (by simp) plain]
    have shorter : ∀ other ∈ parent, IsPlain other :=
      fun other member => plain other (by simp [member])
    simp only [dropIdle_of_plain plain, List.dropLast_concat, dropIdle_of_plain shorter]
  rw [siblingPath, fileName?_path plain, Option.isSome_some, if_pos rfl, above]
  cases parent with
  | nil => simp [joinNames, childPath, endsInSlash, Location.path]
  | cons first rest =>
    have same : slash :: joinNames (first :: rest) = Location.path (first :: rest) := by
      rw [joinNames_cons]
      simp [Location.path]
    have unslashed := endsInSlash_path (List.cons_ne_nil first rest)
      fun other member => plain other (List.mem_append_left [name] member)
    rw [same, childPath, unslashed]
    simp [Location.path]

/-! ## A name below -/

theorem pathNames_childPath (clean : slash ∉ name) (written : name ≠ []) (path : Bytes) :
    pathNames (childPath path name) = pathNames path ++ [name] := by
  have alone : parts slash name = [name] := parts_of_not_mem clean
  unfold childPath
  split
  · rename_i ends
    by_cases empty : path = []
    · subst empty
      simp [pathNames, alone, parts, written]
    · obtain ⟨front, last, rfl⟩ := (List.eq_nil_or_concat' path).resolve_left empty
      have final : last = slash := by
        simpa [endsInSlash] using ends
      rw [final, List.append_assoc, List.singleton_append, pathNames, pathNames,
        parts_append_separator, parts_append_separator, alone]
      simp [written, parts]
  · rw [pathNames, pathNames, parts_append_separator, alone]
    simp [written]

theorem endsInSlash_childPath (clean : slash ∉ name) (written : name ≠ []) (path : Bytes) :
    endsInSlash (childPath path name) = false := by
  obtain ⟨front, last, rfl⟩ := (List.eq_nil_or_concat' name).resolve_left written
  have other : last ≠ slash := by
    rintro rfl
    simp at clean
  unfold childPath endsInSlash
  split
  · rw [← List.append_assoc, List.getLast?_concat]
    simpa using other
  · rw [← List.cons_append, ← List.append_assoc, List.getLast?_concat]
    simpa using other

/-- The path of another name ends in that name. -/
theorem siblingPath_ends (clean : slash ∉ name) (written : name ≠ []) (path : Bytes) :
    endsInSlash (siblingPath path name) = false ∧
      ∃ front, pathNames (siblingPath path name) = front ++ [name] :=
  ⟨endsInSlash_childPath clean written _, _, pathNames_childPath clean written _⟩

/-- The last part of a path is empty only behind a final slash. -/
private theorem exists_last_part (unslashed : endsInSlash path = false) (written : path ≠ []) :
    ∃ before last, parts slash path = before ++ [last] ∧ last ≠ [] := by
  by_cases slashed : slash ∈ path
  · obtain ⟨tail, base, reversed, clean⟩ :=
      List.eq_append_cons_of_mem (List.mem_reverse.mpr slashed)
    have whole : path = base.reverse ++ slash :: tail.reverse := by
      have same := congrArg List.reverse reversed
      simpa using same
    have single : parts slash tail.reverse = [tail.reverse] :=
      parts_of_not_mem (by simpa using clean)
    refine ⟨parts slash base.reverse, tail.reverse, ?_, ?_⟩
    · rw [whole, parts_append_separator, single]
    · intro empty
      rw [whole, empty, endsInSlash, List.getLast?_concat] at unslashed
      simp at unslashed
  · exact ⟨[], path, parts_of_not_mem slashed, written⟩

/-- There is something to walk for every path but the empty one. -/
theorem walkNames_ne_nil (written : path ≠ []) : walkNames path ≠ [] := by
  cases slashed : endsInSlash path with
  | true => simp [walkNames, slashed]
  | false =>
    obtain ⟨before, last, split, named⟩ := exists_last_part slashed written
    simp [walkNames, pathNames, split, named, slashed]

/-- A path that names something by its last name has that name. -/
theorem fileName?_of_ends (unslashed : endsInSlash path = false)
    (ends : pathNames path = front ++ [name]) (single : name ≠ dot) (double : name ≠ dotDot) :
    fileName? path = some name := by
  have some : path ≠ [] := by
    rintro rfl
    simp [pathNames, parts] at ends
  obtain ⟨before, last, split, written⟩ := exists_last_part unslashed some
  have same : last = name := by
    rw [pathNames, split] at ends
    simp only [List.filter_append, List.filter_cons, List.filter_nil,
      List.isEmpty_eq_false_iff.mpr written, Bool.not_false, if_true] at ends
    exact (List.append_singleton_inj.mp ends).2
  subst same
  obtain ⟨above, below⟩ : ∃ above, (anchored path).2 = above ++ [last] := by
    unfold anchored
    rw [split]
    cases before with
    | nil => exact ⟨[], by simp [written, single]⟩
    | cons first rest =>
      dsimp only [List.cons_append]
      split_ifs
      · exact ⟨rest, rfl⟩
      · exact ⟨rest, rfl⟩
      · exact ⟨first :: rest, rfl⟩
  have kept : dropIdle (above ++ [last]) = above ++ [last] := by
    simp [dropIdle, written, single]
  rw [fileName?, below, kept, List.getLast?_concat]
  simp [double]

/-- There is no slash in the name that a path ends in. -/
theorem slash_not_mem_fileName? (named : fileName? path = some name) : slash ∉ name := by
  rw [fileName?, Option.filter_eq_some_iff] at named
  have member : name ∈ (anchored path).2 := by
    have kept := List.mem_of_getLast? named.1
    rw [dropIdle, List.mem_reverse] at kept
    exact List.mem_reverse.mp ((List.dropWhile_sublist _).mem kept)
  have part : name ∈ parts slash path := by
    unfold anchored at member
    split at member
    · cases member
    · rename_i first rest split
      rw [split]
      split_ifs at member
      · exact List.mem_cons_of_mem first member
      · exact List.mem_cons_of_mem first member
      · exact member
  exact not_mem_of_mem_parts part

end Files

end ReleasePicker
