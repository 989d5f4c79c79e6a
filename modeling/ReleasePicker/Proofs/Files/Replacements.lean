import ReleasePicker.Proofs.Files.Operations
import ReleasePicker.Proofs.Utf8

/-!
A replacement is all or nothing. While its steps are under way the tree differs from what it was by
the temporary file alone. Making that file and taking over the name are the only steps that can
fail: before the one nothing has happened, and after the other the temporary file can be taken away
again. Taking over the name is what changes the target.
-/
namespace ReleasePicker.Files

open FileTree

/-- The tree with a temporary file. -/
def FileTree.staged (tree : FileTree) (parent : Location) (temporary : Name) (mode : Nat)
    (content : Bytes) : FileTree :=
  tree.put (parent ++ [temporary]) (.file tree.freshNumber mode content)

/-- What has to hold for a temporary file to be made: its path names a place where nothing stands,
in a directory that takes new names. -/
structure Ready (tree : FileTree) (temporary : Bytes) (parent : Location) (name : Name) : Prop where
  names : tree.Names temporary parent name
  free : ∀ place ∈ tree.entries, ¬ parent ++ [name] <+: place.1
  short : name.length ≤ longestName
  writable : tree.allows parent .write = true

variable {tree : FileTree} {temporary target : Bytes} {parent : Location} {name : Name}

namespace Ready

theorem lookup_eq_none (ready : Ready tree temporary parent name) :
    tree.entries.lookup (parent ++ [name]) = none :=
  FileTree.lookup_eq_none ready.free

theorem absent (ready : Ready tree temporary parent name) :
    tree.entry? (parent ++ [name]) = none := by
  rw [entry?_of_ne_nil tree (by simp), ready.lookup_eq_none]

theorem not_above (ready : Ready tree temporary parent name)
    (directory : tree.holdsDirectory place) :
    ¬ parent ++ [name] <+: place := by
  intro above
  obtain ⟨mode, found⟩ := holdsDirectory_iff.mp directory
  by_cases root : place = []
  · rw [root, List.prefix_nil] at above
    simp at above
  · exact ready.free _ (mem_entries_of_found root found) above

theorem refiled (ready : Ready tree temporary parent name) (mode : Nat) (content : Bytes) :
    tree.Refiled (tree.staged parent name mode content) :=
  refiled_put tree (by simp) rfl (by simp [ready.absent])

end Ready

/-! ## Making the temporary file -/

/-- Whatever can go wrong with a temporary file goes wrong when it is made. -/
theorem createFile_vacant (wellFormed : tree.WellFormed) (unslashed : endsInSlash temporary = false)
    (ends : pathNames temporary = front ++ [name]) (plain : name ≠ [] ∧ name ≠ dot ∧ name ≠ dotDot)
    (vacant : tree.Vacant temporary) :
    (∃ parent, Ready tree temporary parent name ∧
        tree.createFile temporary = .ok (tree.staged parent name tree.newFileMode [])) ∨
      ∃ fault, tree.createFile temporary = .error fault := by
  cases made : tree.createFile temporary with
  | error fault => exact .inr ⟨fault, rfl⟩
  | ok after =>
    obtain ⟨location, located, effect⟩ := createFile_eq_ok unslashed made
    obtain ⟨parent, names⟩ := names_of_locateNew unslashed ends plain located
    have short := names.short_of_locateNew located
    have slot : slotLocation ⟨parent, some name, false⟩ = .ok (parent ++ [name]) :=
      slotLocation_eq_ok_iff.mpr ⟨name, rfl, short, rfl⟩
    have absent := vacant _ _ (slot_eq_ok_iff.mpr names) slot
    have here := (names.locateNew absent).symm.trans located
    rw [if_neg (Nat.not_lt.mpr short)] at here
    cases here
    rcases effect with ⟨-, writable, rfl⟩ | ⟨number, mode, content, found, -⟩
    · rw [List.dropLast_concat] at writable
      exact .inl ⟨parent, ⟨names, wellFormed.below absent, short, writable⟩, rfl⟩
    · rw [absent] at found
      cases found

/-! ## The steps on a tree with the temporary file -/

theorem entry?_staged (tree : FileTree) (parent : Location) (name : Name) (mode : Nat)
    (content : Bytes) :
    FileTree.entry? (tree.staged parent name mode content) (parent ++ [name]) =
      some (.file tree.freshNumber mode content) := by
  rw [staged, entry?_put tree (by simp), if_pos rfl]

section

variable (ready : Ready tree temporary parent name)
include ready

theorem locate_staged (mode : Nat) (content : Bytes) :
    (tree.staged parent name mode content).locate temporary = .ok (parent ++ [name]) := by
  have names := ready.names.refiled (ready.refiled mode content)
  exact names.locate ready.short ⟨_, entry?_staged tree parent name mode content, rfl⟩

theorem changeFile_staged (mode : Nat) (content : Bytes) (change : Entry → Entry) :
    (tree.staged parent name mode content).changeFile tree.freshNumber change =
      tree.put (parent ++ [name]) (change (.file tree.freshNumber mode content)) :=
  changeFile_put ready.lookup_eq_none rfl change

theorem appendToFile_staged (mode : Nat) (content added : Bytes) :
    (tree.staged parent name mode content).appendToFile temporary added =
      .ok (tree.staged parent name mode (content ++ added)) := by
  simp only [appendToFile, locate_staged ready, entry?_staged, changeFile_staged ready, bind,
    Except.bind]
  rfl

theorem write_staged (mode : Nat) (content added : Bytes) :
    (Step.write temporary added).perform (tree.staged parent name mode content) =
      .ok (tree.staged parent name mode (content ++ added)) :=
  (Step.write_perform _ temporary added).trans (appendToFile_staged ready mode content added)

theorem sync_staged (mode : Nat) (content : Bytes) :
    (Step.sync temporary).perform (tree.staged parent name mode content) =
      .ok (tree.staged parent name mode content) := by
  rw [Step.sync_perform, locate_staged ready]
  rfl

theorem setMode_staged (mode newMode : Nat) (content : Bytes) :
    (tree.staged parent name mode content).setMode temporary newMode =
      .ok (tree.staged parent name newMode content) := by
  simp only [setMode, locate_staged ready, entry?_staged, changeFile_staged ready, bind,
    Except.bind]
  rfl

/-- Taking the temporary file away undoes its making. -/
theorem unlink_staged (mode : Nat) (content : Bytes) :
    (tree.staged parent name mode content).unlink temporary = .ok tree := by
  have refiled := ready.refiled mode content
  have writable : (tree.staged parent name mode content).allows parent .write = true := by
    rw [refiled.allows_eq ready.names.directory]
    exact ready.writable
  rw [unlink_file (ready.names.refiled refiled) ready.short (entry?_staged tree parent name mode content)
    writable, staged, erase_put ready.free]

/-- The permission bits that the temporary file gets: those of the target if there is one. -/
def FileTree.keptFrom (tree : FileTree) (parent : Location) (name : Name)
    (target content : Bytes) : Nat :=
  match (tree.staged parent name tree.newFileMode content).modeOf target with
  | .ok mode => mode
  | .error _ => tree.newFileMode

theorem keepMode_staged (target content : Bytes) :
    Step.perform (tree.staged parent name tree.newFileMode content) (.keepMode temporary target) =
      .ok (tree.staged parent name (keptFrom tree parent name target content) content) := by
  rw [Step.keepMode_perform, keptFrom]
  cases (tree.staged parent name tree.newFileMode content).modeOf target with
  | error _ => rfl
  | ok mode => exact setMode_staged ready tree.newFileMode mode content

/-- Taking over the name leaves nothing of the temporary file. -/
theorem rename_staged (apart : ∀ place other, tree.Names target place other → other ≠ name)
    (mode : Nat) (content : Bytes) :
    (∃ fault, (tree.staged parent name mode content).rename temporary target = .error fault) ∨
      ∃ place other, tree.Names target place other ∧ other.length ≤ longestName ∧
        tree.holdsDirectory (place ++ [other]) = false ∧
        (tree.staged parent name mode content).rename temporary target =
          .ok (tree.put (place ++ [other]) (.file tree.freshNumber mode content)) := by
  cases renamed : (tree.staged parent name mode content).rename temporary target with
  | error fault => exact .inl ⟨fault, rfl⟩
  | ok after =>
    right
    have refiled := ready.refiled mode content
    obtain ⟨source, place, last, other, entry, movable, effect⟩ := rename_eq_ok renamed
    obtain ⟨rfl, rfl⟩ := (ready.names.refiled refiled).unique movable.source
    have names : tree.Names target place other := names_of_put (by simp) rfl
      (not_directory_of_absent ready.absent) movable.target
    have away : place ++ [other] ≠ source ++ [last] := by
      intro same
      exact apart place other names (List.append_singleton_inj.mp same).2
    have standing : FileTree.entry? (tree.staged source last mode content) (place ++ [other]) =
        tree.entry? (place ++ [other]) := by
      rw [staged, entry?_put tree (by simp), if_neg away]
    have found := movable.found
    rw [entry?_staged] at found
    cases found
    rcases effect with ⟨-, here | ⟨number, known, replaced⟩⟩ | ⟨-, single, rfl⟩
    · exact absurd here.symm away
    · -- No file but the temporary one has its number.
      cases known
      rw [standing] at replaced
      obtain ⟨old, found, fresh⟩ := Option.bind_eq_some_iff.mp replaced
      exact absurd fresh (number?_ne_of_found found)
    · refine ⟨place, other, names, movable.short.2, ?_, ?_⟩
      · rw [holdsDirectory, standing] at single
        exact single
      · -- The target is put first and the temporary name taken away then. As neither lies below
        -- the other, the order does not matter, and taking away undoes the staging.
        have clear : ¬ source ++ [last] <+: place ++ [other] := by
          intro front
          rcases List.prefix_concat_iff.mp front with same | above
          · exact away same.symm
          · exact ready.not_above names.directory above
        rw [erase_put_comm clear, staged, erase_put ready.free]

end

/-! ## The whole replacement -/

theorem performAll_ok {step : Step} (performed : step.perform tree = .ok after) (rest : List Step) :
    Replacement.performAll tree (step :: rest) = Replacement.performAll after rest := by
  rw [Replacement.performAll_cons, performed]

theorem performAll_error {step : Step} (failed : step.perform tree = .error fault)
    (rest : List Step) :
    Replacement.performAll tree (step :: rest) = (.error (.io step.blamed fault), tree) := by
  rw [Replacement.performAll_cons, failed]

/-- Once the temporary file is made, everything up to taking over the name goes well. -/
theorem performAll_staged (ready : Ready tree temporary parent name)
    (made : tree.createFile temporary = .ok (tree.staged parent name tree.newFileMode []))
    (target content : Bytes) :
    Replacement.performAll tree (Replacement.mk target temporary content).steps =
      Replacement.performAll
        (tree.staged parent name (tree.keptFrom parent name target content) content)
        [.takeOver temporary target] := by
  have created := (Step.create_perform tree temporary).trans made
  have written := write_staged ready tree.newFileMode [] content
  rw [List.nil_append] at written
  have synced := sync_staged ready tree.newFileMode content
  rw [Replacement.steps, performAll_ok created, performAll_ok written, performAll_ok synced,
    performAll_ok (keepMode_staged ready _ _)]

/-- A replacement changes nothing, or it gives the name of its target a new file. -/
theorem perform_cases (wellFormed : tree.WellFormed) (unslashed : endsInSlash temporary = false)
    (ends : pathNames temporary = front ++ [name]) (plain : name ≠ [] ∧ name ≠ dot ∧ name ≠ dotDot)
    (vacant : tree.Vacant temporary)
    (apart : ∀ place other, tree.Names target place other → other ≠ name) (content : Bytes) :
    (∃ error, (Replacement.mk target temporary content).perform tree = (.error error, tree)) ∨
      ∃ parent place other, Ready tree temporary parent name ∧
        tree.Names target place other ∧ other.length ≤ longestName ∧
        tree.holdsDirectory (place ++ [other]) = false ∧
        (Replacement.mk target temporary content).perform tree =
          (.ok (), tree.put (place ++ [other]) (.file tree.freshNumber
            (tree.keptFrom parent name target content) content)) := by
  rcases createFile_vacant wellFormed unslashed ends plain vacant with
    ⟨parent, ready, made⟩ | ⟨fault, failed⟩
  · have staged := performAll_staged ready made target content
    let mode := tree.keptFrom parent name target content
    rcases rename_staged ready apart mode content with
      ⟨fault, failed⟩ | ⟨place, other, names, short, single, moved⟩
    · have failed := (Step.takeOver_perform _ temporary target).trans failed
      have removed := unlink_staged ready mode content
      refine .inl ⟨.io target fault, ?_⟩
      rw [Replacement.perform_eq, staged, performAll_error failed]
      dsimp only
      rw [removed]
      rfl
    · have moved := (Step.takeOver_perform _ temporary target).trans moved
      refine .inr ⟨parent, place, other, ready, names, short, single, ?_⟩
      rw [Replacement.perform_eq, staged, performAll_ok moved, Replacement.performAll_nil]
  · have failed := (Step.create_perform tree temporary).trans failed
    -- There is no temporary file yet that could be taken away.
    obtain ⟨reason, absent⟩ := unlink_eq_error vacant
    refine .inl ⟨.io temporary fault, ?_⟩
    rw [Replacement.perform_eq, Replacement.steps, performAll_error failed]
    dsimp only
    rw [absent]
    rfl

end ReleasePicker.Files
