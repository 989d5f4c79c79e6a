import ReleasePicker.Proofs.Files.Readings

/-!
Reading a path after the file there was replaced, whatever had the name of the temporary file: an
old file, another name of the target, or a link. Where a link had the name it is the link that takes
over the name of the target, so that the path can lead elsewhere, or nowhere, than before. But if
the path can be read at all, then what is read is the new content.
-/
namespace ReleasePicker.Files

open FileTree

variable {tree now after : FileTree} {tag : Text} {path temporary target : Bytes}

namespace FileTree

/-! ## Changing files -/

theorem refiled_changeFile (tree : FileTree) (number : Nat) {change : Entry → Entry}
    (kept : ∀ entry, (change entry).number? = entry.number?) :
    tree.Refiled (tree.changeFile number change) where
  caller := rfl
  workingDirectory := rfl
  files := by
    intro place entry found file
    rw [entry?_changeFile, found]
    refine ⟨_, rfl, ?_⟩
    dsimp only
    split
    · rw [kept]
      exact file
    · exact file
  others := by
    intro place entry single
    rw [entry?_changeFile, Option.map_eq_some_iff]
    constructor
    · intro found
      exact ⟨entry, found, if_neg (by simp [single])⟩
    · rintro ⟨old, found, changed⟩
      split at changed
      · rename_i file
        rw [← changed, kept, file] at single
        cases single
      · rw [found, changed]

end FileTree

/-! ## The content on its way -/

/-- Whether a path leads to a file with the content, and every name of the file with it. -/
structure Written (tree : FileTree) (path : Bytes) (location : Location) (number : Nat)
    (content : Bytes) : Prop where
  located : tree.locate path = .ok location
  found : ∃ mode, tree.entry? location = some (.file number mode content)
  shared : ∀ place mode bytes, tree.entry? place = some (.file number mode bytes) → bytes = content

/-- A change that gives all names of a file one content writes it. -/
theorem written_changeFile (located : tree.locate path = .ok location)
    (found : tree.entry? location = some (.file number mode old)) {change : Entry → Entry}
    (changes : ∀ place mode bytes, tree.entry? place = some (.file number mode bytes) →
      ∃ other, change (.file number mode bytes) = .file number other content)
    (kept : ∀ entry, (change entry).number? = entry.number?) :
    tree.Refiled (tree.changeFile number change) ∧
      Written (tree.changeFile number change) path location number content := by
  have refiled := refiled_changeFile tree number kept
  refine ⟨refiled, refiled.locate located, ?_, ?_⟩
  · obtain ⟨other, changed⟩ := changes _ _ _ found
    refine ⟨other, ?_⟩
    rw [entry?_changeFile, found, Option.map_some, if_pos (by rfl), changed]
  · intro place mode bytes here
    rw [entry?_changeFile, Option.map_eq_some_iff] at here
    obtain ⟨entry, standing, changed⟩ := here
    by_cases file : entry.number? = some number
    · rw [if_pos file] at changed
      obtain ⟨mode, before, rfl⟩ := number?_eq_some_iff.mp file
      obtain ⟨other, same⟩ := changes place mode before standing
      cases same.symm.trans changed
      rfl
    · rw [if_neg file] at changed
      exact absurd (by rw [changed]; rfl) file

theorem number?_withContent (content : Bytes) (entry : Entry) :
    (entry.withContent content).number? = entry.number? := by
  cases entry <;> rfl

theorem number?_withMode (mode : Nat) (entry : Entry) :
    (entry.withMode mode).number? = entry.number? := by
  cases entry <;> rfl

theorem Written.append (written : Written tree path location number content)
    (appended : tree.appendToFile path added = .ok after) :
    tree.Refiled after ∧ Written after path location number (content ++ added) := by
  obtain ⟨mode, found⟩ := written.found
  simp only [appendToFile, written.located, found, bind, Except.bind] at appended
  cases appended
  exact written_changeFile written.located found (fun _ mode _ _ => ⟨mode, rfl⟩)
    (number?_withContent _)

theorem Written.keepMode (written : Written tree path location number content)
    (done : (Step.keepMode path target).perform tree = .ok after) :
    tree.Refiled after ∧ Written after path location number content := by
  obtain ⟨mode, found⟩ := written.found
  rw [Step.keepMode_perform] at done
  cases bits : tree.modeOf target with
  | error fault =>
    rw [bits] at done
    cases done
    exact ⟨.refl tree, written⟩
  | ok mode =>
    simp only [bits, setMode, written.located, found, bind, Except.bind] at done
    cases done
    apply written_changeFile written.located found _ (number?_withMode mode)
    intro place other bytes standing
    rw [written.shared place other bytes standing]
    exact ⟨mode, rfl⟩

/-- The path that a new file is to have leads to it when it is there. -/
theorem locate_of_locateNew (located : tree.locateNew path = .ok location)
    (refiled : tree.Refiled after) (found : after.entry? location = some entry)
    (noLink : entry.target? = none) : after.locate path = .ok location := by
  cases checked : checkPath path with
  | error fault =>
    rw [locateNew, checked] at located
    cases located
  | ok _ =>
    rw [locateNew, checked] at located
    obtain ⟨used, enough, arrives⟩ := arrives_of_walk located
    refine locate_eq_ok_iff.mpr ⟨checked, used, enough, ?_⟩
    rw [refiled.startOf_eq]
    have whole : Manner.mustExist ≠ .workedOut ∨ tree.WellFormed := .inl (by decide)
    cases arrives with
    | there route => exact refiled.leads (route.inManner (by decide) (by decide)) whole
    | @new parent name _ route enters sought absent place =>
      subst place
      have enters : after.Enters .mustExist parent name :=
        refiled.enters (enters.inManner (by decide) (by decide)) whole
      have route : tree.Leads .mustExist _ _ _ parent [name] :=
        route.inManner (by decide) (by decide)
      exact (refiled.leads route whole).trans (.hop (.down enters sought found noLink) .refl)

theorem createFile_written (unslashed : endsInSlash path = false)
    (made : tree.createFile path = .ok after) :
    ∃ location number, tree.Refiled after ∧ Written after path location number [] := by
  obtain ⟨location, located, effect⟩ := createFile_eq_ok unslashed made
  refine ⟨location, ?_⟩
  rcases effect with ⟨absent, -, rfl⟩ | ⟨number, mode, old, found, rfl⟩
  · have named : location ≠ [] := by
      rintro rfl
      cases absent
    have refiled : tree.Refiled (tree.put location (.file tree.freshNumber tree.newFileMode [])) :=
      refiled_put tree named rfl (by simp [absent])
    have found := entry?_put tree named (.file tree.freshNumber tree.newFileMode []) location
    rw [if_pos rfl] at found
    refine ⟨tree.freshNumber, refiled, locate_of_locateNew located refiled found rfl,
      ⟨_, found⟩, ?_⟩
    intro place mode bytes here
    rw [entry?_put tree named] at here
    split at here
    · cases here
      rfl
    · exact absurd rfl (number?_ne_of_found here)
  · have leads := locate_of_locateNew located (.refl tree) found rfl
    refine ⟨number, written_changeFile leads found ?_ ?_⟩
    · intro _ _ _ _
      exact ⟨_, rfl⟩
    · intro entry
      rw [number?_withMode, number?_withContent]

theorem performAll_cons_eq_ok {step : Step} {rest : List Step}
    (performed : Replacement.performAll tree (step :: rest) = (.ok (), after)) :
    ∃ now, step.perform tree = .ok now ∧ Replacement.performAll now rest = (.ok (), after) := by
  rw [Replacement.performAll_cons] at performed
  cases once : step.perform tree with
  | error fault =>
    rw [once] at performed
    cases performed
  | ok now =>
    rw [once] at performed
    exact ⟨now, rfl, performed⟩

/-- A replacement that succeeds has moved a file with the whole content. -/
theorem written_of_perform (unslashed : endsInSlash temporary = false)
    (performed : (Replacement.mk target temporary content).perform tree = (.ok (), after)) :
    ∃ now location number, tree.Refiled now ∧ Written now temporary location number content ∧
      now.rename temporary target = .ok after := by
  have succeeded : Replacement.performAll tree (Replacement.mk target temporary content).steps =
      (.ok (), after) := by
    rw [Replacement.perform_eq] at performed
    split at performed
    · rename_i all
      cases performed
      exact all
    · split at performed <;> cases performed
  obtain ⟨made, created, rest⟩ := performAll_cons_eq_ok succeeded
  obtain ⟨appended, wrote, rest⟩ := performAll_cons_eq_ok rest
  obtain ⟨synced, same, rest⟩ := performAll_cons_eq_ok rest
  obtain ⟨kept, bits, rest⟩ := performAll_cons_eq_ok rest
  obtain ⟨moved, renamed, rest⟩ := performAll_cons_eq_ok rest
  cases rest
  rw [Step.create_perform] at created
  rw [Step.write_perform] at wrote
  rw [Step.sync_perform] at same
  rw [Step.takeOver_perform] at renamed
  obtain ⟨location, number, first, written⟩ := createFile_written unslashed created
  obtain ⟨second, written⟩ := written.append wrote
  have stays : synced = appended := by
    rw [written.located] at same
    exact (Except.ok.inj same).symm
  subst stays
  obtain ⟨third, written⟩ := written.keepMode bits
  exact ⟨kept, location, number, (first.trans second).trans third, written, renamed⟩

/-! ## The name that is taken over -/

/-- Where a link has taken the name of a file, a route that comes to it goes on to where the link
leads, and all others stay as they are. -/
theorem relinked {parent : Location} {name : Name} {link : Bytes} {far : Location}
    (replaced : after.entry? (parent ++ [name]) = some (.link link))
    (kept : ∀ place entry, place ≠ parent ++ [name] → after.entry? place = some entry →
      now.entry? place = some entry)
    (enters : ∀ here other, after.Enters .mustExist here other → now.Enters .mustExist here other)
    (file : now.entry? (parent ++ [name]) = some (.file number mode old))
    (leads : now.Leads .mustExist (linkStart parent link) (walkNames link) spent far [])
    (standing : now.entry? far = some (.file other bits content))
    (route : after.Leads .mustExist here names used found []) :
    ∃ used place, now.Leads .mustExist here names used place [] ∧
      (place = found ∨ place = parent ++ [name] ∧ found = far) := by
  generalize none : ([] : List Name) = rest at route
  induction route with
  | refl =>
    subst none
    exact ⟨_, _, .refl, .inl rfl⟩
  | @hop here names cost there more used found rest first onward ih =>
    subst none
    obtain ⟨spent', place, onward, ends⟩ := ih rfl
    have proceed (hop : now.Hop .mustExist here names cost there more) :
        ∃ used place, now.Leads .mustExist here names used place [] ∧
          (place = found ∨ place = parent ++ [name] ∧ found = far) :=
      ⟨_, place, .hop hop onward, ends⟩
    cases first with
    | stay allowed idle => exact proceed (.stay (enters _ _ allowed) idle)
    | up allowed => exact proceed (.up (enters _ _ allowed))
    | down allowed sought here' noLink =>
      refine proceed (.down (enters _ _ allowed) sought (kept _ _ ?_ here') noLink)
      intro same
      rw [same, replaced] at here'
      cases here'
      cases noLink
    | @follow other' target rest' allowed sought linked =>
      by_cases same : here ++ [other'] = parent ++ [name]
      · -- The target was a file, so its route ended here.
        obtain ⟨rfl, rfl⟩ := List.append_singleton_inj.mp same
        cases replaced.symm.trans linked
        have ended : place = far ∧ rest' = [] := by
          rcases onward.split with ⟨left, short, alone⟩ | ⟨_, middle, _, _, alone, beyond⟩
          · obtain ⟨rfl, rfl⟩ := List.append_eq_nil_iff.mp short.symm
            exact ⟨alone.end_unique leads, rfl⟩
          · cases alone.end_unique leads
            obtain ⟨there, more⟩ := beyond.from_file standing rfl
            exact ⟨there, more.symm⟩
        obtain ⟨rfl, rfl⟩ := ended
        refine ⟨_, _, .hop (.down (enters _ _ allowed) sought file rfl) .refl, .inr ⟨rfl, ?_⟩⟩
        rcases ends with ends | ⟨-, ends⟩
        · exact ends.symm
        · exact ends
      · exact proceed (.follow (enters _ _ allowed) sought (kept _ _ same linked))

/-! ## The tree after the move -/

section

variable {parent : Location} {name other : Name}

/-- The tree with an entry moved from one name to another in a directory. -/
def FileTree.moved (tree : FileTree) (parent : Location) (other name : Name) (entry : Entry) :
    FileTree :=
  (tree.put (parent ++ [name]) entry).erase (parent ++ [other])

theorem entry?_moved (now : FileTree) (entry : Entry) (place : Location) :
    FileTree.entry? (now.moved parent other name entry) place =
      if parent ++ [other] <+: place then none
      else if place = parent ++ [name] then some entry else now.entry? place := by
  rw [moved, entry?_erase _ (by simp), entry?_put now (by simp)]

theorem caller_moved (now : FileTree) (entry : Entry) :
    (now.moved parent other name entry).caller = now.caller :=
  caller_put now _ entry

theorem startOf_moved (now : FileTree) (entry : Entry) (path : Bytes) :
    (now.moved parent other name entry).startOf path = now.startOf path := by
  rw [startOf, startOf, moved, erase, workingDirectory_put]

theorem neighbours_ne (apart : other ≠ name) : parent ++ [other] ≠ parent ++ [name] := by
  intro same
  exact apart (List.append_singleton_inj.mp same).2

/-- Neighbours do not stand below each other. -/
theorem not_below (apart : other ≠ name) : ¬ parent ++ [other] <+: parent ++ [name] := by
  intro below
  exact neighbours_ne apart (below.eq_of_length (by simp))

/-- Nothing stands below what is no directory. -/
theorem clear_of_directory (wellFormed : tree.WellFormed) (refiled : tree.Refiled now)
    (single : now.holdsDirectory place = false) (directory : now.holdsDirectory here) :
    ¬ place <+: here := by
  intro below
  have standing := refiled.directory_iff.mpr directory
  obtain ⟨mode, found⟩ := holdsDirectory_iff.mp standing
  have above : now.holdsDirectory place := by
    by_cases same : place = here
    · exact same ▸ directory
    · exact refiled.directory_iff.mp (wellFormed.above (by simp [found]) below same)
  rw [single] at above
  cases above

/-- If a file has been moved, the path leads to where it led before. -/
theorem locate_of_moved_file (wellFormed : tree.WellFormed) (refiled : tree.Refiled now)
    (apart : other ≠ name) (located : now.locate path = .ok (parent ++ [name]))
    (old : now.entry? (parent ++ [name]) = some replaced) (oldFile : replaced.number?.isSome)
    (new : now.entry? (parent ++ [other]) = some entry) (newFile : entry.number?.isSome) :
    (now.moved parent other name entry).locate path = .ok (parent ++ [name]) := by
  obtain ⟨checked, used, enough, route⟩ := locate_eq_ok_iff.mp located
  refine locate_eq_ok_iff.mpr ⟨checked, used, enough, ?_⟩
  have clear {here : Location} (directory : now.holdsDirectory here) :
      ¬ parent ++ [other] <+: here :=
    clear_of_directory wellFormed refiled (holdsDirectory_of_file new newFile) directory
  have enters (here : Location) (last : Name) (entered : now.Enters .mustExist here last) :
      (now.moved parent other name entry).Enters .mustExist here last := by
    have away : here ≠ parent ++ [name] := by
      rintro rfl
      have directory := entered.directory
      rw [holdsDirectory_of_file old oldFile] at directory
      cases directory
    refine enters_of_same (caller_moved now entry) ?_ entered
    rw [entry?_moved, if_neg (clear entered.directory), if_neg away]
  have kept (place : Location) (standing : Entry) (away : ¬ parent ++ [other] <+: place)
      (found : now.entry? place = some standing) :
      ∃ entry', FileTree.entry? (now.moved parent other name entry) place =
        some entry' ∧ entry'.target? = standing.target? := by
    rw [entry?_moved, if_neg away]
    by_cases here : place = parent ++ [name]
    · subst here
      cases old.symm.trans found
      exact ⟨entry, if_pos rfl, by rw [target?_of_file newFile, target?_of_file oldFile]⟩
    · exact ⟨standing, by rw [if_neg here, found], rfl⟩
  rw [startOf_moved]
  rcases route.keep_or_meet (parent ++ [other] <+: ·) enters kept with
    route | ⟨stop, last, more, _, _, there, next, _, meets, sought, -, -, hop, onward⟩
  · exact route
  · -- A route that comes to the file which is moved ends there.
    exfalso
    rcases List.prefix_concat_iff.mp meets with same | below
    · rcases hop.of_sought sought with ⟨_, -, -, -, rfl, rfl⟩ | ⟨target, link, -⟩
      · rw [← same] at onward
        exact neighbours_ne apart (onward.from_file new newFile).1.symm
      · rw [← same, new] at link
        cases link
        cases newFile
    · exact clear hop.enters.directory below

/-! ## Reading -/

/-- A path that ends in a link leads on from there. -/
theorem leads_of_link (names : now.Names path parent other) (short : other.length ≤ longestName)
    (found : now.entry? (parent ++ [other]) = some (.link link))
    (located : now.locate path = .ok location) :
    ∃ used, now.Leads .mustExist (linkStart parent link) (walkNames link) used location [] := by
  obtain ⟨-, _, -, route⟩ := locate_eq_ok_iff.mp located
  obtain ⟨_, -, above⟩ := names.route
  rw [names.walkNames_eq] at route
  rcases route.split with ⟨left, short, -⟩ | ⟨_, middle, _, -, first, last⟩
  · simp at short
  · cases first.end_unique above
    obtain ⟨written, single, double⟩ := names.plain
    cases last with
    | hop hop onward =>
      rcases hop.of_sought ⟨written, single, double, short⟩ with
        ⟨entry, standing, noLink, -⟩ | ⟨target, standing, -, rfl, rfl⟩
      · cases found.symm.trans standing
        cases noLink
      · cases found.symm.trans standing
        rw [List.append_nil] at onward
        exact ⟨_, onward⟩

theorem readFile_of_moved_file (wellFormed : tree.WellFormed) (refiled : tree.Refiled now)
    (apart : other ≠ name) (located : now.locate path = .ok (parent ++ [name]))
    (old : now.entry? (parent ++ [name]) = some replaced) (oldFile : replaced.number?.isSome)
    (new : now.entry? (parent ++ [other]) = some (.file mine bits content))
    (read : (now.moved parent other name (.file mine bits content)).readFile path = .ok bytes) :
    bytes = content := by
  obtain ⟨place, number, mode, there, -, here⟩ := readFile_eq_ok_iff.mp read
  have stays := locate_of_moved_file wellFormed refiled apart located old oldFile new rfl
  cases stays.symm.trans there
  rw [entry?_moved, if_neg (not_below apart), if_pos rfl] at here
  cases here
  rfl

/-- If a link has been moved, the path leads to where the link leads, if it leads anywhere. -/
theorem readFile_of_moved_link (apart : other ≠ name)
    (located : now.locate path = .ok (parent ++ [name]))
    (file : now.entry? (parent ++ [name]) = some (.file number mode old))
    (leads : now.Leads .mustExist (linkStart parent link) (walkNames link) spent far [])
    (standing : now.entry? far = some (.file mine bits content))
    (read : (now.moved parent other name (.link link)).readFile path = .ok bytes) :
    bytes = content := by
  obtain ⟨place, number', mode', there, -, here⟩ := readFile_eq_ok_iff.mp read
  obtain ⟨-, _, -, route⟩ := locate_eq_ok_iff.mp there
  obtain ⟨-, _, -, before⟩ := locate_eq_ok_iff.mp located
  have kept (spot : Location) (entry : Entry) (away : spot ≠ parent ++ [name])
      (found : FileTree.entry? (now.moved parent other name (.link link)) spot = some entry) :
      now.entry? spot = some entry := by
    rw [entry?_moved, if_neg away] at found
    by_cases below : parent ++ [other] <+: spot
    · rw [if_pos below] at found
      cases found
    · rwa [if_neg below] at found
  have relink : FileTree.entry? (now.moved parent other name (.link link)) (parent ++ [name]) =
      some (.link link) := by
    rw [entry?_moved, if_neg (not_below apart), if_pos rfl]
  have enters (spot : Location) (last : Name)
      (entered : (now.moved parent other name (.link link)).Enters .mustExist spot last) :
      now.Enters .mustExist spot last := by
    obtain ⟨mode, directory⟩ := holdsDirectory_iff.mp entered.directory
    have away : spot ≠ parent ++ [name] := by
      rintro rfl
      cases relink.symm.trans directory
    refine enters_of_same (caller_moved now _).symm ?_ entered
    rw [directory, kept _ _ away directory]
  rw [startOf_moved] at route
  obtain ⟨_, final, back, ends⟩ := relinked relink kept enters file leads standing route
  cases back.end_unique before
  rcases ends with rfl | ⟨-, rfl⟩
  · cases relink.symm.trans here
  · have away : place ≠ parent ++ [name] := by
      rintro rfl
      cases relink.symm.trans here
    cases standing.symm.trans (kept _ _ away here)
    rfl

/-- Whatever file or link took over the name of the target, reading gives what was written. -/
theorem readFile_of_moved (wellFormed : tree.WellFormed) (refiled : tree.Refiled now)
    (found : tree.entry? (parent ++ [name]) = some (.file number mode old))
    (located : tree.locate path = .ok (parent ++ [name])) (plain : IsPlain other)
    (apart : other ≠ name)
    (written : Written now (Location.path (parent ++ [other])) location mine content)
    (moved : now.rename (Location.path (parent ++ [other])) (Location.path (parent ++ [name])) =
      .ok after)
    (read : after.readFile path = .ok bytes) : bytes = content := by
  obtain ⟨inside, isName, standing⟩ := wellFormed.concat found
  have standing : now.Standing parent :=
    fun place above => refiled.directory_iff.mp (standing place above)
  obtain ⟨above, place, last, target, entry, movable, effect⟩ := rename_eq_ok moved
  obtain ⟨rfl, rfl⟩ := names_path inside plain standing movable.source
  obtain ⟨rfl, rfl⟩ := names_path inside isName.1 standing movable.target
  obtain ⟨replaced, foundNow, isFile⟩ := refiled.files _ _ found rfl
  have locatedNow := refiled.locate located
  have source := movable.found
  -- The temporary file is the one that was written, unless its name is that of a link.
  have mineOfFile (file : entry.number?.isSome) : ∃ bits, entry = .file mine bits content := by
    have leads := movable.source.locate movable.short.1 ⟨entry, source, target?_of_file file⟩
    cases leads.symm.trans written.located
    obtain ⟨bits, same⟩ := written.found
    exact ⟨bits, Option.some.inj (source.symm.trans same)⟩
  rcases effect with ⟨rfl, same | ⟨shared, known, shares⟩⟩ | ⟨-, -, rfl⟩
  · exact absurd same (neighbours_ne apart)
  · obtain ⟨bits, rfl⟩ := mineOfFile (by rw [known]; rfl)
    obtain ⟨spot, number', mode', there, -, here⟩ := readFile_eq_ok_iff.mp read
    cases known
    cases locatedNow.symm.trans there
    rw [here] at shares
    cases shares
    exact written.shared _ _ _ here
  · cases entry with
    | directory bits => exact absurd rfl (movable.single bits)
    | file number bits bytes' =>
      obtain ⟨bits, same⟩ := mineOfFile rfl
      cases same
      exact readFile_of_moved_file wellFormed refiled apart locatedNow foundNow isFile source read
    | link link =>
      obtain ⟨spent, leads⟩ := leads_of_link movable.source movable.short.1 source written.located
      obtain ⟨bits, far⟩ := written.found
      obtain ⟨number, isNumber⟩ := Option.isSome_iff_exists.mp isFile
      obtain ⟨mode, old, rfl⟩ := number?_eq_some_iff.mp isNumber
      exact readFile_of_moved_link apart locatedNow foundNow leads far read

end

/-- After the file at a path was replaced, reading the path gives the new content or fails. -/
theorem readFile_of_replaceFile (wellFormed : tree.WellFormed) (single : '/' ∉ tag)
    (read : tree.readFile path = .ok old)
    (replaced : tree.replaceFile tag path content = (.ok (), after))
    (again : after.readFile path = .ok bytes) : bytes = content := by
  obtain ⟨location, number, mode, located, -, found⟩ := readFile_eq_ok_iff.mp read
  rcases List.eq_nil_or_concat' location with rfl | ⟨parent, name, rfl⟩
  · cases found
  obtain ⟨inside, isName, -⟩ := wellFormed.concat found
  have plain := temporaryName_plain single (Location.path (parent ++ [name]))
  have longer := length_temporaryName tag (Location.path (parent ++ [name]))
  rw [replaceFile_eq] at replaced
  cases planned : Replacement.plan tag tree path content with
  | error error =>
    rw [planned] at replaced
    cases replaced
  | ok replacement =>
    obtain ⟨target, named, rfl⟩ := plan_eq_ok planned
    cases targetOf_of_locate located named
    rw [planned] at replaced
    obtain ⟨unslashed, -⟩ := siblingPath_ends plain.2.2.2 plain.1 (Location.path (parent ++ [name]))
    obtain ⟨now, place, mine, refiled, written, moved⟩ := written_of_perform unslashed replaced
    have plainAbove := plain_concat inside isName.1
    rw [siblingPath_path plainAbove] at written moved
    refine readFile_of_moved wellFormed refiled found located plain ?_ written moved again
    intro same
    rw [same, fileName?_path plainAbove, Option.getD_some] at longer
    omega

end ReleasePicker.Files
