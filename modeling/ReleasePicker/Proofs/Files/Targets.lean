import ReleasePicker.Proofs.Files.Replacements

/-!
The file that is replaced. A path that leads somewhere is worked out to a location, and the file
there is replaced under the path of the location; a path that leads nowhere is taken as it is. In
both cases the temporary file goes into the directory of the target, under a name that is longer
than that of the target.
-/
namespace ReleasePicker.Files

open FileTree

variable {tree : FileTree} {tag : Text} {path : Bytes}

/-! ## The name of the temporary file -/

theorem slash_not_mem_encode (single : '/' ∉ tag) : slash ∉ Utf8.encode tag := by
  intro member
  obtain ⟨c, written, member⟩ := List.mem_flatMap.mp member
  have code : c = '/' := Char.toNat_inj.mp (Utf8.toNat_of_mem_encodeChar member (by decide)).symm
  exact single (code ▸ written)

theorem temporaryName_eq (tag : Text) (path : Bytes) :
    Replacement.temporaryName tag path = Utf8.encode ['.'] ++
      (Utf8.encode (Utf8.decodeLossy ((fileName? path).getD [])) ++ (Utf8.encode ['.'] ++
        (Utf8.encode tag ++ Utf8.encode ".tmp".toList))) := by
  simp only [Replacement.temporaryName, Utf8.encode_append, List.append_assoc]

/-- The name of a temporary file is longer than the one that it is made from. -/
theorem length_temporaryName (tag : Text) (path : Bytes) :
    ((fileName? path).getD []).length + 4 < (Replacement.temporaryName tag path).length := by
  have kept := Utf8.length_le_encode_decodeLossy ((fileName? path).getD [])
  have ending : (Utf8.encode ".tmp".toList).length = 4 := rfl
  have point : (Utf8.encode ['.']).length = 1 := rfl
  rw [temporaryName_eq]
  simp only [List.length_append, ending, point]
  omega

theorem temporaryName_plain (single : '/' ∉ tag) (path : Bytes) :
    IsPlain (Replacement.temporaryName tag path) := by
  have longer := length_temporaryName tag path
  have clean : slash ∉ (fileName? path).getD [] := by
    cases named : fileName? path with
    | none => simp
    | some name => exact slash_not_mem_fileName? named
  have lossy : slash ∉ Utf8.encode (Utf8.decodeLossy ((fileName? path).getD [])) := by
    intro member
    rcases Utf8.mem_of_mem_encode_decodeLossy member with member | member
    · exact clean member
    · revert member
      decide
  -- The names that lead up or nowhere are at most two bytes long.
  refine ⟨?_, ?_, ?_, ?_⟩
  · intro same
    rw [same, List.length_nil] at longer
    omega
  · intro same
    rw [same] at longer
    simp only [dot, List.length_cons, List.length_nil] at longer
    omega
  · intro same
    rw [same] at longer
    simp only [dotDot, List.length_cons, List.length_nil] at longer
    omega
  · rw [temporaryName_eq]
    simp only [List.mem_append, not_or]
    exact ⟨by decide, lossy, by decide, slash_not_mem_encode single, by decide⟩

/-- The target of a replacement has another name than the temporary file. -/
theorem ne_temporaryName {target : Bytes} {place : Location} {other : Name}
    (names : tree.Names target place other) : other ≠ Replacement.temporaryName tag target := by
  have named := fileName?_of_ends names.unslashed names.ends names.plain.2.1 names.plain.2.2
  have longer := length_temporaryName tag target
  rw [named, Option.getD_some] at longer
  rintro rfl
  omega

/-! ## Where a path leads -/

theorem canonical_eq_ok (leads : tree.canonical path = .ok location) :
    0 ∉ path ∧ path ≠ [] ∧ ∃ used, used ≤ mostLinks ∧
      tree.Leads .workedOut (tree.startOf path) (walkNames path) used location [] := by
  unfold canonical at leads
  split at leads
  · cases leads
  split at leads
  · cases leads
  · rename_i zero empty
    exact ⟨zero, empty, leads_of_walk (by decide) leads⟩

theorem canonical_of_leads (zero : 0 ∉ path) (written : path ≠ []) (enough : used ≤ mostLinks)
    (route : tree.Leads .workedOut (tree.startOf path) (walkNames path) used location []) :
    tree.canonical path = .ok location := by
  rw [canonical, if_neg zero, if_neg written, route.walk_eq, if_pos enough, walk]

theorem locate_eq_ok_iff :
    tree.locate path = .ok location ↔ checkPath path = .ok () ∧ ∃ used, used ≤ mostLinks ∧
      tree.Leads .mustExist (tree.startOf path) (walkNames path) used location [] := by
  rw [locate]
  cases checked : checkPath path with
  | error fault => simp [bind, Except.bind]
  | ok _ =>
    simp only [bind, Except.bind, true_and]
    constructor
    · exact leads_of_walk (by decide)
    · rintro ⟨used, enough, route⟩
      rw [route.walk_eq, if_pos enough, walk]

/-- A path that there is a route for leads to something, even if the way is refused. -/
theorem canonical_ne_missing (written : path ≠ [])
    (route : tree.Leads .mustExist (tree.startOf path) (walkNames path) used location []) :
    tree.canonical path ≠ .error .missing := by
  rw [canonical, if_neg written]
  split
  · intro same
    cases same
  · exact route.walk_ne_missing mostLinks

/-- What a path leads to is worked out, unless a way on the route is refused. -/
theorem canonical_of_locate (located : tree.locate path = .ok location) :
    tree.canonical path = .ok location ∨
      ∃ fault, fault ≠ .missing ∧ tree.canonical path = .error fault := by
  obtain ⟨checked, used, enough, route⟩ := locate_eq_ok_iff.mp located
  obtain ⟨zero, written, -⟩ := checkPath_eq_ok_iff.mp checked
  rcases route.workedOut with route | refused
  · exact .inl (canonical_of_leads zero written enough route)
  · right
    rw [canonical, if_neg zero, if_neg written]
    exact refused mostLinks

/-- A file in a working directory that nothing can be looked up above. -/
def closedTree : FileTree where
  entries :=
    let above := Utf8.encode "a".toList
    let directory := Utf8.encode "b".toList
    [([above], .directory 0o600),
     ([above, directory], .directory 0o755),
     ([above, directory, Utf8.encode "f".toList], .file 0 0o644 [])]
  workingDirectory := [Utf8.encode "a".toList, Utf8.encode "b".toList]
  caller := .owner
  mask := 0o022

example :
    closedTree.locate (Utf8.encode "f".toList) =
      .ok [Utf8.encode "a".toList, Utf8.encode "b".toList, Utf8.encode "f".toList] := by
  cbv

example : closedTree.canonical (Utf8.encode "f".toList) = .error .denied := by
  cbv

theorem canonical_stands (wellFormed : tree.WellFormed)
    (leads : tree.canonical path = .ok location) : tree.Stands location := by
  obtain ⟨-, written, used, -, route⟩ := canonical_eq_ok leads
  exact route.stands wellFormed (walkNames_ne_nil written)

/-- Whether everything down to a location is a directory. -/
def FileTree.Standing (tree : FileTree) (location : Location) : Prop :=
  ∀ place, place <+: location → tree.holdsDirectory place

theorem startOf_path (tree : FileTree) (parent : Location) (name : Name) :
    tree.startOf (Location.path (parent ++ [name])) = [] := by
  have absolute : (Location.path (parent ++ [name])).head? = some slash := by
    rw [path_concat]
    cases parent <;> rfl
  exact if_pos absolute

/-- A route along the names of directories leads down to them. -/
theorem found_eq_append {here found : Location} {names : List Name}
    (inside : ∀ name ∈ names, IsName name)
    (standing : ∀ above, above <+: names → tree.holdsDirectory (here ++ above))
    (route : tree.Leads manner here names used found []) : found = here ++ names := by
  induction names generalizing here used with
  | nil =>
    cases route with
    | refl => exact (List.append_nil _).symm
    | hop first => cases first
  | cons name rest ih =>
    obtain ⟨⟨written, single, double, -⟩, -, short⟩ := inside name List.mem_cons_self
    obtain ⟨mode, directory⟩ := holdsDirectory_iff.mp (standing [name] (by simp))
    cases route with
    | hop first onward =>
      rcases first.of_sought ⟨written, single, double, short⟩ with
        ⟨_, -, -, -, rfl, rfl⟩ | ⟨target, link, -⟩
      · rw [List.append_cons]
        apply ih (fun other member => inside other (List.mem_cons_of_mem name member)) ?_ onward
        intro above front
        rw [← List.append_cons]
        exact standing (name :: above) (List.prefix_cons_inj name |>.mpr front)
      · cases directory.symm.trans link

/-- The path of a location names the location. -/
theorem names_path {parent place : Location} {name other : Name}
    (inside : ∀ other ∈ parent, IsName other) (plain : IsPlain name)
    (standing : tree.Standing parent)
    (names : tree.Names (Location.path (parent ++ [name])) place other) :
    place = parent ∧ other = name := by
  have whole := pathNames_path
    (List.append_ne_nil_of_right_ne_nil parent (List.cons_ne_nil name []))
    (plain_concat inside plain)
  obtain ⟨used, -, route⟩ := names.route
  have ends := names.ends
  rw [whole, List.dropLast_concat] at ends route
  rw [startOf_path] at route
  have down : ∀ above, above <+: parent → tree.holdsDirectory ([] ++ above) := standing
  exact ⟨found_eq_append inside down route,
    (List.append_singleton_inj.mp ends).2.symm⟩

/-- Whatever stands somewhere has a name and stands below directories. -/
theorem FileTree.WellFormed.concat (wellFormed : tree.WellFormed) {parent : Location} {name : Name}
    (found : tree.entry? (parent ++ [name]) = some entry) :
    (∀ other ∈ parent, IsName other) ∧ IsName name ∧ tree.Standing parent := by
  have isName := wellFormed.isName found
  refine ⟨fun other member => isName other (by simp [member]), isName name (by simp), ?_⟩
  intro place above
  apply wellFormed.above (by simp [found]) (above.trans (List.prefix_append parent [name]))
  rintro rfl
  have short := above.length_le
  rw [List.length_append, List.length_singleton] at short
  omega

/-- The path of a location where something stands names nothing else. -/
theorem names_location (wellFormed : tree.WellFormed) {place : Location} {other : Name}
    (found : tree.entry? location = some entry) (names : tree.Names location.path place other) :
    place ++ [other] = location := by
  rcases List.eq_nil_or_concat' location with rfl | ⟨parent, name, rfl⟩
  · have ends := names.ends
    simp [Location.path, pathNames, parts] at ends
  · obtain ⟨inside, isName, standing⟩ := wellFormed.concat found
    obtain ⟨rfl, rfl⟩ := names_path inside isName.1 standing names
    rfl

/-- If nothing stands beside a file under the name of the temporary file, then nothing has the name
that the path of the temporary file ends in. -/
theorem FileTree.SparesTemporary.vacant (wellFormed : tree.WellFormed) (single : '/' ∉ tag)
    (spared : tree.SparesTemporary tag path) (leads : tree.canonical path = .ok location)
    (named : location ≠ []) {temporary : Bytes}
    (known : tree.temporaryPath tag path = .ok temporary) : tree.Vacant temporary := by
  obtain ⟨entry, found, -⟩ := canonical_stands wellFormed leads
  rcases List.eq_nil_or_concat' location with rfl | ⟨parent, name, rfl⟩
  · exact absurd rfl named
  obtain ⟨inside, isName, standing⟩ := wellFormed.concat found
  have plain := temporaryName_plain single (Location.path (parent ++ [name]))
  have free := spared _ leads
  rw [List.dropLast_concat] at free
  rw [temporaryPath, leads] at known
  cases known
  rintro ⟨above, last, slashed⟩ place slot located
  obtain ⟨last, rfl, -, rfl⟩ := slotLocation_eq_ok_iff.mp located
  dsimp only at slot
  rw [siblingPath_path (plain_concat inside isName.1)] at slot
  cases (slashed_of_slot slot).trans (endsInSlash_path (by simp) (plain_concat inside plain))
  obtain ⟨rfl, rfl⟩ := names_path inside plain standing (slot_eq_ok_iff.mp slot)
  exact free

/-- The target of a replacement is where the path leads, or the path itself if it leads nowhere. -/
theorem targetOf_eq_ok {target : Bytes}
    (named : Replacement.targetOf path ((tree.canonical path).map Location.path) = .ok target) :
    (∃ location, tree.canonical path = .ok location ∧ target = location.path) ∨
      tree.canonical path = .error .missing ∧ target = path := by
  cases leads : tree.canonical path with
  | ok location =>
    rw [leads] at named
    cases named
    exact .inl ⟨location, rfl, rfl⟩
  | error fault =>
    by_cases missing : fault = .missing
    · subst missing
      rw [leads] at named
      cases named
      exact .inr ⟨rfl, rfl⟩
    · rw [leads, Except.map, Replacement.targetOf] at named
      · cases named
      · exact missing

theorem targetOf_of_locate {target : Bytes} (located : tree.locate path = .ok location)
    (named : Replacement.targetOf path ((tree.canonical path).map Location.path) = .ok target) :
    target = location.path := by
  rcases targetOf_eq_ok named with ⟨place, leads, rfl⟩ | ⟨missing, -⟩
  · rcases canonical_of_locate located with known | ⟨fault, -, refused⟩
    · cases known.symm.trans leads
      rfl
    · cases refused.symm.trans leads
  · rcases canonical_of_locate located with known | ⟨fault, other, refused⟩
    · cases known.symm.trans missing
    · cases refused.symm.trans missing
      exact absurd rfl other

/-- Where a path cannot be worked out, nothing is replaced. -/
theorem replaceFile_of_refused {content : Bytes} (refused : tree.canonical path = .error fault)
    (other : fault ≠ .missing) :
    tree.replaceFile tag path content = (.error (.io path fault), tree) := by
  rw [replaceFile_eq, Replacement.plan_eq, refused, Except.map, Replacement.targetOf]
  exact other

theorem plan_eq_ok {content : Bytes} {replacement : Replacement}
    (planned : Replacement.plan tag tree path content = .ok replacement) :
    ∃ target, Replacement.targetOf path ((tree.canonical path).map Location.path) = .ok target ∧
      replacement = Replacement.ofTarget tag target content := by
  rw [Replacement.plan_eq] at planned
  cases named : Replacement.targetOf path ((tree.canonical path).map Location.path) with
  | error error =>
    rw [named] at planned
    cases planned
  | ok target =>
    refine ⟨target, rfl, ?_⟩
    simp only [named] at planned
    unfold Replacement.ofMode at planned
    split at planned
    · split at planned
      · cases planned
      · cases planned
        rfl
    · cases planned
      rfl

/-! ## The permission bits -/

section

variable {temporary target content : Bytes} {parent place : Location} {name other : Name}

theorem keptFrom_of_found (ready : Ready tree temporary parent name)
    (names : tree.Names target place other) (short : other.length ≤ longestName)
    (found : tree.entry? (place ++ [other]) = some (.file number mode old)) :
    tree.keptFrom parent name target content = mode := by
  have refiled := ready.refiled tree.newFileMode content
  have away : place ++ [other] ≠ parent ++ [name] := by
    intro same
    rw [same, ready.absent] at found
    cases found
  have standing : FileTree.entry? (tree.staged parent name tree.newFileMode content)
      (place ++ [other]) = some (.file number mode old) := by
    rw [staged, entry?_put tree (by simp), if_neg away, found]
  have located := (names.refiled refiled).locate short ⟨_, standing, rfl⟩
  simp only [keptFrom, modeOf, located, standing, bind, Except.bind, Option.bind_some, Entry.mode?]

theorem keptFrom_of_missing (ready : Ready tree temporary parent name)
    (missing : tree.canonical path = .error .missing) :
    tree.keptFrom parent name path content = tree.newFileMode := by
  have refiled := ready.refiled tree.newFileMode content
  cases located : (tree.staged parent name tree.newFileMode content).locate path with
  | error fault => simp only [keptFrom, modeOf, located, bind, Except.bind]
  | ok location =>
    by_cases here : location = parent ++ [name]
    · -- A link that led nowhere can lead to the temporary file.
      subst here
      simp only [keptFrom, modeOf, located, entry?_staged, bind, Except.bind, Option.bind_some,
        Entry.mode?]
    · obtain ⟨checked, used, -, route⟩ := locate_eq_ok_iff.mp located
      obtain ⟨-, written, -⟩ := checkPath_eq_ok_iff.mp checked
      rw [refiled.startOf_eq] at route
      have route := leads_of_put (by simp) rfl (not_directory_of_absent ready.absent) here route
      exact absurd missing (canonical_ne_missing written route)

end

/-! ## All that can happen -/

/-- The ends of replacing a file: nothing changes, or the file that the path leads to gives way to a
new file with its bits, or a new file stands where the path led to nothing. -/
inductive Replaced (tree : FileTree) (path content : Bytes) :
    Except FileError Unit → FileTree → Prop where
  | failed : Replaced tree path content (.error error) tree
  | standing (leads : tree.canonical path = .ok location)
      (found : tree.entry? location = some (.file number mode old)) :
      Replaced tree path content (.ok ())
        (tree.put location (.file tree.freshNumber mode content))
  | missing (leads : tree.canonical path = .error .missing)
      (names : tree.Names path parent name) (short : name.length ≤ longestName)
      (single : tree.holdsDirectory (parent ++ [name]) = false) :
      Replaced tree path content (.ok ())
        (tree.put (parent ++ [name]) (.file tree.freshNumber tree.newFileMode content))

theorem perform_replaced (wellFormed : tree.WellFormed) (single : '/' ∉ tag) {target : Bytes}
    (named : Replacement.targetOf path ((tree.canonical path).map Location.path) = .ok target)
    (vacant : tree.Vacant (siblingPath target (Replacement.temporaryName tag target)))
    (content : Bytes) {result : Except FileError Unit} {after : FileTree}
    (performed : (Replacement.ofTarget tag target content).perform tree = (result, after)) :
    Replaced tree path content result after ∧
      after.Vacant (siblingPath target (Replacement.temporaryName tag target)) := by
  obtain ⟨written, point, double, clean⟩ := temporaryName_plain single target
  obtain ⟨unslashed, front, ends⟩ := siblingPath_ends clean written target
  rw [Replacement.ofTarget] at performed
  rcases perform_cases wellFormed unslashed ends ⟨written, point, double⟩ vacant
      (fun _ _ => ne_temporaryName) content with
    ⟨error, failed⟩ | ⟨parent, place, other, ready, names, short, free, done⟩
  · rw [failed] at performed
    cases performed
    exact ⟨.failed, vacant⟩
  · rw [done] at performed
    cases performed
    refine ⟨?_, vacant.put unslashed ends rfl free (ne_temporaryName names)⟩
    rcases targetOf_eq_ok named with ⟨location, leads, rfl⟩ | ⟨leads, rfl⟩
    · obtain ⟨entry, found, noLink⟩ := canonical_stands wellFormed leads
      have same := names_location wellFormed found names
      subst same
      cases entry with
      | link _ => cases noLink
      | directory _ => simp [holdsDirectory, found] at free
      | file number mode old =>
        rw [keptFrom_of_found ready names short found]
        exact .standing leads found
    · rw [keptFrom_of_missing ready leads]
      exact .missing leads names short free

/-- Replacing the file at a path is all or nothing, and leaves no temporary file. -/
theorem replaceFile_replaced (wellFormed : tree.WellFormed) (single : '/' ∉ tag)
    (vacant : ∀ temporary, tree.temporaryPath tag path = .ok temporary → tree.Vacant temporary)
    {content : Bytes} {result : Except FileError Unit} {after : FileTree}
    (replaced : tree.replaceFile tag path content = (result, after)) :
    Replaced tree path content result after ∧
      ∀ temporary, tree.temporaryPath tag path = .ok temporary → after.Vacant temporary := by
  rw [replaceFile_eq] at replaced
  cases planned : Replacement.plan tag tree path content with
  | error error =>
    rw [planned] at replaced
    cases replaced
    exact ⟨.failed, vacant⟩
  | ok replacement =>
    obtain ⟨target, named, rfl⟩ := plan_eq_ok planned
    have whole : tree.temporaryPath tag path =
        .ok (siblingPath target (Replacement.temporaryName tag target)) := by
      rw [temporaryPath, named]
      rfl
    rw [planned] at replaced
    obtain ⟨ended, clear⟩ := perform_replaced wellFormed single named (vacant _ whole) content
      replaced
    refine ⟨ended, ?_⟩
    rintro temporary known
    rw [whole] at known
    cases known
    exact clear

end ReleasePicker.Files
