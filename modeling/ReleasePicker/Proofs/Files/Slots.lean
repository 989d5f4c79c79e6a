import ReleasePicker.Proofs.Files.Routes

/-!
Paths that name an entry of a directory, whether or not it is there. What the single operations find
under such a path is a matter of that entry alone, because the way to its directory is a route.
-/
namespace ReleasePicker.Files.FileTree

variable {tree before after : FileTree} {path : Bytes} {parent : Location} {name : Name}

/-- Whether a path comes to a directory that can be entered, with a proper name left over. -/
structure Names (tree : FileTree) (path : Bytes) (parent : Location) (name : Name) : Prop where
  checked : checkPath path = .ok ()
  unslashed : endsInSlash path = false
  ends : pathNames path = (pathNames path).dropLast ++ [name]
  plain : name ≠ [] ∧ name ≠ dot ∧ name ≠ dotDot
  directory : tree.holdsDirectory parent
  opened : tree.allows parent .search = true
  route : ∃ used, used ≤ mostLinks ∧
    tree.Leads .mustExist (tree.startOf path) (pathNames path).dropLast used parent []

theorem Names.enters (names : tree.Names path parent name) (whole : manner ≠ .workedOut)
    (other : Name) : tree.Enters manner parent other :=
  enters_whole whole names.directory fun _ => names.opened

theorem ne_nil_of_mem_pathNames (member : name ∈ pathNames path) : name ≠ [] := by
  simpa using (List.mem_filter.mp member).2

/-- The slot of a path is such a directory and name. -/
theorem slot_eq_ok_iff :
    tree.slot path = .ok ⟨parent, some name, false⟩ ↔ tree.Names path parent name := by
  simp only [slot, bind, Except.bind, pure, Except.pure]
  constructor
  · intro found
    cases checked : checkPath path with
    | error fault => simp [checked] at found
    | ok _ =>
      cases walked : tree.walk .mustExist mostLinks (tree.startOf path)
          ((pathNames path).dropLast ++ [dot]) with
      | error fault => simp [checked, walked] at found
      | ok directory =>
        simp only [checked, walked, Except.ok.injEq, Slot.mk.injEq, Option.filter_eq_some_iff,
          decide_eq_true_eq] at found
        obtain ⟨rfl, ⟨last, special⟩, unslashed⟩ := found
        have ends := (List.dropLast_append_getLast? name last).symm
        have written : name ≠ [] := ne_nil_of_mem_pathNames (by rw [ends]; simp)
        obtain ⟨used, enough, route⟩ := leads_of_walk (by decide) walked
        rcases route.split with ⟨left, short, -⟩ | ⟨first, middle, second, sum, route, onward⟩
        · simp at short
        · cases onward with
          | hop last stop =>
            have enters := last.enters
            cases last with
            | stay =>
              cases stop with
              | refl =>
                exact ⟨checked, unslashed, ends, ⟨written, special⟩, enters.directory,
                  enters.opened rfl, first, by omega, route⟩
              | hop more => cases more
            | down _ sought => exact absurd rfl sought.2.1
            | follow _ sought => exact absurd rfl sought.2.1
  · intro names
    obtain ⟨used, enough, route⟩ := names.route
    have walked : tree.walk .mustExist mostLinks (tree.startOf path)
        ((pathNames path).dropLast ++ [dot]) = .ok parent := by
      rw [(route.append [dot]).walk_eq, if_pos enough, List.nil_append,
        (Hop.stay (names.enters (by decide) dot) (.inr rfl)).walk_eq, if_pos (Nat.zero_le _), walk]
    have last : (pathNames path).getLast? = some name := by
      rw [names.ends, List.getLast?_concat]
    simp [names.checked, walked, last, names.plain, names.unslashed]

theorem slashed_of_slot {slot : Slot} (found : tree.slot path = .ok slot) :
    slot.slashed = endsInSlash path := by
  simp only [FileTree.slot, bind, Except.bind, pure, Except.pure] at found
  cases checked : checkPath path with
  | error fault => simp [checked] at found
  | ok _ =>
    cases walked : tree.walk .mustExist mostLinks (tree.startOf path)
        ((pathNames path).dropLast ++ [dot]) with
    | error fault => simp [checked, walked] at found
    | ok directory =>
      simp only [checked, walked, Except.ok.injEq] at found
      rw [← found]

theorem Names.unique (names : tree.Names path parent name) (others : tree.Names path place other) :
    place = parent ∧ other = name := by
  have same := (slot_eq_ok_iff.mpr names).symm.trans (slot_eq_ok_iff.mpr others)
  simp only [Except.ok.injEq, Slot.mk.injEq, Option.some.injEq] at same
  exact ⟨same.1.symm, same.2.1.symm⟩

theorem Names.walkNames_eq (names : tree.Names path parent name) :
    walkNames path = (pathNames path).dropLast ++ [name] := by
  rw [walkNames, names.unslashed, ← names.ends]
  simp

/-- A walk of the whole path comes to the directory, with the name left over. -/
theorem Names.walk_eq (names : tree.Names path parent name) (manner : Manner)
    (whole : manner ≠ .workedOut) :
    ∃ used, tree.walk manner mostLinks (tree.startOf path) (walkNames path) =
      tree.walk manner (mostLinks - used) parent [name] := by
  obtain ⟨used, enough, route⟩ := names.route
  refine ⟨used, ?_⟩
  rw [names.walkNames_eq, ((route.inManner (by decide) whole).append [name]).walk_eq,
    if_pos enough]
  rfl

theorem Names.walk_last (names : tree.Names path parent name) (whole : manner ≠ .workedOut)
    (links : Nat) :
    tree.walk manner links parent [name] =
      if longestName < name.length then .error .nameTooLong
      else match tree.entry? (parent ++ [name]) with
        | none => if manner = .mayBeNew then .ok (parent ++ [name]) else .error .missing
        | some (.link target) =>
          match links with
          | 0 => .error .tooManyLinks
          | links + 1 => tree.walk manner links (linkStart parent target) (walkNames target)
        | some _ => .ok (parent ++ [name]) := by
  obtain ⟨written, single, double⟩ := names.plain
  have special : ¬ (name = [] ∨ name = dot) := by
    simp [written, single]
  rw [walk_cons (names.enters whole name), if_neg special, if_neg double]
  by_cases long : longestName < name.length
  · rw [if_pos long, if_pos long]
  · rw [if_neg long, if_neg long]
    cases tree.entry? (parent ++ [name]) with
    | none => simp
    | some entry =>
      cases entry with
      | link target =>
        cases links with
        | zero => rfl
        | succ links => simp [linkStart]
      | file _ _ _ => simp [walk]
      | directory _ => simp [walk]

/-! ## Finding the entry -/

theorem Names.locate (names : tree.Names path parent name) (short : name.length ≤ longestName)
    (stands : tree.Stands (parent ++ [name])) : tree.locate path = .ok (parent ++ [name]) := by
  obtain ⟨used, walked⟩ := names.walk_eq .mustExist (by decide)
  obtain ⟨entry, found, noLink⟩ := stands
  rw [FileTree.locate, names.checked]
  refine walked.trans ?_
  rw [names.walk_last (by decide), if_neg (Nat.not_lt.mpr short), found]
  cases entry with
  | link target => cases noLink
  | file _ _ _ => rfl
  | directory _ => rfl

theorem Names.locateNew (names : tree.Names path parent name)
    (absent : tree.entry? (parent ++ [name]) = none) :
    tree.locateNew path =
      if longestName < name.length then .error .nameTooLong else .ok (parent ++ [name]) := by
  obtain ⟨used, walked⟩ := names.walk_eq .mayBeNew (by decide)
  rw [FileTree.locateNew, names.checked]
  refine walked.trans ?_
  rw [names.walk_last (by decide), absent]
  rfl

theorem Names.short_of_locateNew (names : tree.Names path parent name)
    (located : tree.locateNew path = .ok found) : name.length ≤ longestName := by
  obtain ⟨used, walked⟩ := names.walk_eq .mayBeNew (by decide)
  rw [FileTree.locateNew, names.checked] at located
  have ended := walked.symm.trans located
  rw [names.walk_last (by decide)] at ended
  by_contra long
  rw [if_pos (Nat.not_le.mp long)] at ended
  cases ended

/-- A path that ends in a proper name and under which something can be made comes to a directory
that can be entered. -/
theorem names_of_locateNew (unslashed : endsInSlash path = false)
    (ends : pathNames path = front ++ [name]) (plain : name ≠ [] ∧ name ≠ dot ∧ name ≠ dotDot)
    (located : tree.locateNew path = .ok found) : ∃ parent, tree.Names path parent name := by
  cases checked : checkPath path with
  | error fault =>
    rw [FileTree.locateNew, checked] at located
    cases located
  | ok _ =>
    have walked : tree.walk .mayBeNew mostLinks (tree.startOf path) (front ++ [name]) =
        .ok found := by
      have names : walkNames path = front ++ [name] := by
        simp [walkNames, unslashed, ends]
      rw [FileTree.locateNew, checked, names] at located
      exact located
    obtain ⟨used, enough, arrives⟩ := arrives_of_walk walked
    obtain ⟨parent, first, few, route, enters⟩ : ∃ parent first, first ≤ used ∧
        tree.Leads .mayBeNew (tree.startOf path) front first parent [] ∧
        tree.Enters .mayBeNew parent name := by
      cases arrives with
      | there route =>
        rcases route.split with ⟨left, short, -⟩ | ⟨first, middle, second, sum, route, onward⟩
        · simp at short
        · cases onward with
          | hop last _ => exact ⟨middle, first, by omega, route, last.enters⟩
      | @new parent other _ route enters =>
        rcases route.split with ⟨left, same, short⟩ | ⟨first, middle, second, sum, short, onward⟩
        · obtain ⟨rfl, rfl⟩ := List.append_singleton_inj.mp
            (show [] ++ [other] = left ++ [name] from same)
          exact ⟨parent, used, Nat.le_refl _, short, enters⟩
        · cases onward with
          | refl => exact ⟨_, first, by omega, short, enters⟩
          | hop last _ => exact ⟨middle, first, by omega, short, last.enters⟩
    have looks : Manner.looksUp .mayBeNew name = true := by
      simp [Manner.looksUp, plain.1]
    have dropped : (pathNames path).dropLast = front := by
      rw [ends, List.dropLast_concat]
    refine ⟨parent, checked, unslashed, by rw [dropped, ends], plain, enters.directory,
      enters.opened looks, first, by omega, ?_⟩
    rw [dropped]
    exact route.inManner (by decide) (by decide)

/-! ## The same path in another tree -/

theorem Names.refiled (names : before.Names path parent name) (refiled : before.Refiled after) :
    after.Names path parent name := by
  obtain ⟨used, enough, route⟩ := names.route
  refine ⟨names.checked, names.unslashed, names.ends, names.plain,
    refiled.directory_iff.mp names.directory, ?_, used, enough, ?_⟩
  · rw [refiled.allows_eq names.directory]
    exact names.opened
  · rw [refiled.startOf_eq]
    exact refiled.leads route (.inl (by decide))

/-- Paths name nothing new because of a new file. -/
theorem names_of_put (named : location ≠ []) (number : entry.number?.isSome)
    (single : tree.holdsDirectory location = false)
    (names : (tree.put location entry).Names path parent name) : tree.Names path parent name := by
  have enters := (enters_put_iff tree named number single).mp (names.enters (by decide) dot)
  have away : parent ≠ location := by
    rintro rfl
    cases single.symm.trans enters.directory
  obtain ⟨used, enough, route⟩ := names.route
  rw [startOf, workingDirectory_put] at route
  exact ⟨names.checked, names.unslashed, names.ends, names.plain, enters.directory,
    enters.opened rfl, used, enough, leads_of_put named number single away route⟩

end ReleasePicker.Files.FileTree
