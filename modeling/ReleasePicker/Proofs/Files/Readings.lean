import ReleasePicker.Proofs.Files.Targets

/-!
Reading what was written. A file that is replaced stands where its path leads, before and after; and
where a path led to nothing, it leads to the new file, even if the file takes the place of a link.
-/
namespace ReleasePicker.Files

theorem asText_eq_ok_iff {path : Bytes} {result : Except Fault Bytes} {content : Text} :
    asText path result = .ok content ↔
      ∃ bytes, result = .ok bytes ∧ Utf8.decode? bytes = some content := by
  unfold asText
  split
  · simp
  · simp
  · rename_i bytes
    cases decoded : Utf8.decode? bytes <;> simp [decoded]

namespace FileTree

variable {tree after : FileTree} {path : Bytes} {location parent : Location} {name : Name}

theorem readFile_eq_ok_iff {content : Bytes} :
    tree.readFile path = .ok content ↔
      ∃ location number mode, tree.locate path = .ok location ∧
        tree.allows location .read = true ∧
        tree.entry? location = some (.file number mode content) := by
  simp only [readFile, demand, bind, Except.bind]
  cases tree.locate path with
  | error fault => simp
  | ok location =>
    cases readable : tree.allows location .read with
    | false => simp [readable]
    | true =>
      cases found : tree.entry? location with
      | none => simp [readable, found]
      | some entry => cases entry <;> simp [readable, found]

/-! ## Where a path leads in another tree -/

theorem Refiled.locate (refiled : tree.Refiled after) (located : tree.locate path = .ok location) :
    after.locate path = .ok location := by
  obtain ⟨checked, used, enough, route⟩ := locate_eq_ok_iff.mp located
  refine locate_eq_ok_iff.mpr ⟨checked, used, enough, ?_⟩
  rw [refiled.startOf_eq]
  exact refiled.leads route (.inl (by decide))

theorem Refiled.canonical (refiled : tree.Refiled after) (wellFormed : tree.WellFormed)
    (leads : tree.canonical path = .ok location) : after.canonical path = .ok location := by
  obtain ⟨zero, written, used, enough, route⟩ := canonical_eq_ok leads
  apply canonical_of_leads zero written enough
  rw [refiled.startOf_eq]
  exact refiled.leads route (.inr wellFormed)

/-- For an administrator every route is open. -/
theorem Refiled.leads_asAdministrator (refiled : tree.Refiled after)
    (route : tree.Leads manner here names used found rest) :
    after.asAdministrator.Leads .mustExist here names used found rest := by
  apply route.keep
  · intro here other enters
    exact enters_whole (by decide) (refiled.directory_iff.mp enters.directory) fun _ => rfl
  · exact refiled.keep

theorem locate_asAdministrator (located : tree.locate path = .ok location) :
    tree.asAdministrator.locate path = .ok location := by
  obtain ⟨checked, used, enough, route⟩ := locate_eq_ok_iff.mp located
  exact locate_eq_ok_iff.mpr
    ⟨checked, used, enough, (Refiled.refl tree).leads_asAdministrator route⟩

/-- For an administrator there is a way wherever a path leads, if the path is not too long. -/
theorem Refiled.locate_asAdministrator (refiled : tree.Refiled after)
    (leads : tree.canonical path = .ok location) :
    after.asAdministrator.locate path =
      if longestPath < path.length then .error .nameTooLong else .ok location := by
  obtain ⟨zero, written, used, enough, route⟩ := canonical_eq_ok leads
  by_cases long : longestPath < path.length
  · rw [FileTree.locate, checkPath, if_neg zero, if_neg written, if_pos long, if_pos long]
    rfl
  · rw [if_neg long]
    refine locate_eq_ok_iff.mpr ⟨?_, used, enough, ?_⟩
    · rw [checkPath, if_neg zero, if_neg written, if_neg long]
    · have start : after.asAdministrator.startOf path = tree.startOf path := refiled.startOf_eq path
      rw [start]
      exact refiled.leads_asAdministrator route

/-- A path that leads to nothing does not lead through its own last link: a link that can be
followed once leads somewhere. -/
theorem Names.not_followed (names : tree.Names path parent name)
    (missing : tree.canonical path = .error .missing)
    (onward : tree.Leads .mustExist parent ([name] ++ more) used found []) : False := by
  obtain ⟨-, written, -⟩ := checkPath_eq_ok_iff.mp names.checked
  obtain ⟨first, -, front⟩ := names.route
  obtain ⟨second, stop, last⟩ := onward.of_append
  have route := (front.append [name]).trans last
  rw [← names.walkNames_eq] at route
  exact canonical_ne_missing written route missing

/-- Where a path led to nothing, it leads to a file that is put there. -/
theorem Names.of_missing (names : tree.Names path parent name)
    (missing : tree.canonical path = .error .missing) (number : entry.number?.isSome)
    (single : tree.holdsDirectory (parent ++ [name]) = false) :
    (tree.put (parent ++ [name]) entry).Names path parent name := by
  have enters (here : Location) (other : Name) (entered : tree.Enters .mustExist here other) :
      (tree.put (parent ++ [name]) entry).Enters .mustExist here other :=
    (enters_put_iff tree (by simp) number single).mpr entered
  have kept (place : Location) (old : Entry) (apart : ¬ place = parent ++ [name])
      (found : tree.entry? place = some old) :
      ∃ entry', FileTree.entry? (tree.put (parent ++ [name]) entry) place = some entry' ∧
        entry'.target? = old.target? := by
    rw [entry?_put tree (by simp), if_neg apart]
    exact ⟨old, found, rfl⟩
  obtain ⟨used, enough, route⟩ := names.route
  have entered := enters parent dot (names.enters (by decide) dot)
  refine ⟨names.checked, names.unslashed, names.ends, names.plain, entered.directory,
    entered.opened rfl, used, enough, ?_⟩
  rw [startOf, workingDirectory_put]
  rcases route.keep_or_meet (· = parent ++ [name]) enters kept with
    route | ⟨stop, last, more, first, cost, there, next, second, meets, -, -, -, hop, onward⟩
  · exact route
  · obtain ⟨rfl, rfl⟩ := List.append_singleton_inj.mp meets
    exact (names.not_followed missing (.hop hop onward)).elim

end FileTree

end ReleasePicker.Files
