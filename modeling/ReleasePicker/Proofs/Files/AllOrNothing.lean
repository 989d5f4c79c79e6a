import Mathlib
import ReleasePicker.Proofs.Files.Readings

/-!
What replacing the content of a file at a path does to a tree. It does nothing, or it changes one
name: that of the file which the path leads to, or the one which the path ends in if it leads to
nothing. Reading the path then gives the content back.
-/
namespace ReleasePicker.Files

open FileTree

/-- A tree that differs from another one in what has one name: a new file of its own, with these
bits and this content. -/
structure Placed (before after : FileTree) (location : Location) (mode : Nat) (content : Bytes) :
    Prop where
  new : ∃ fresh, after.entry? location = some (.file fresh mode content) ∧
    ∀ place entry, before.entry? place = some entry → entry.number? ≠ some fresh
  others : ∀ place, place ≠ location → after.entry? place = before.entry? place
  workingDirectory : after.workingDirectory = before.workingDirectory
  caller : after.caller = before.caller
  mask : after.mask = before.mask

theorem placed_put (tree : FileTree) (location : Location) (named : location ≠ []) (mode : Nat)
    (content : Bytes) :
    Placed tree (tree.put location (.file tree.freshNumber mode content)) location mode
      content where
  new := by
    refine ⟨tree.freshNumber, ?_, fun _ _ => number?_ne_of_found⟩
    rw [entry?_put tree named, if_pos rfl]
  others := by
    intro place away
    rw [entry?_put tree named, if_neg away]
  workingDirectory := workingDirectory_put tree location _
  caller := caller_put tree location _
  mask := mask_put tree location _

/-- What reading the path gives if the content is there. -/
theorem readText_asAdministrator {tree : FileTree} {path : Bytes} {location : Location}
    (located : tree.asAdministrator.locate path = .ok location)
    (found : tree.entry? location = some (.file number mode content)) :
    tree.asAdministrator.readText path =
      match Utf8.decode? content with
      | some text => .ok text
      | none => .error (.io path .notText) := by
  have read : tree.asAdministrator.readFile path = .ok content :=
    readFile_eq_ok_iff.mpr ⟨location, number, mode, located, rfl, found⟩
  exact congrArg (asText path) read

/-- **Replacing a file is all or nothing.** If nothing has the name of the temporary file before,
nothing has it after. A replacement that fails leaves the tree as it was. One that succeeds gives
the name of the file that the path leads to, through any links, a new file with the new content and
the bits of the old one; or, where the path leads to nothing, the name that the path ends in a new
file with the bits of new files. Nothing else changes. An administrator who reads the path then
reads the content, unless it is no text; a path that leads to a file but is longer than the system
takes in one piece cannot be read. -/
theorem replaceFile_all_or_nothing {tag : Text} {tree after : FileTree} {path content : Bytes}
    {result : Except FileError Unit} (wellFormed : tree.WellFormed) (single : '/' ∉ tag)
    (vacant : ∀ temporary, tree.temporaryPath tag path = .ok temporary → tree.Vacant temporary)
    (replaced : tree.replaceFile tag path content = (result, after)) :
    (∀ temporary, tree.temporaryPath tag path = .ok temporary → after.Vacant temporary) ∧
    match result with
    | .error _ => after = tree
    | .ok () =>
      (∃ location number mode old, tree.canonical path = .ok location ∧
        tree.entry? location = some (.file number mode old) ∧
        Placed tree after location mode content ∧
        after.asAdministrator.readText path =
          if longestPath < path.length then .error (.io path .nameTooLong)
          else match Utf8.decode? content with
            | some text => .ok text
            | none => .error (.io path .notText)) ∨
      ∃ parent name, tree.canonical path = .error .missing ∧
        tree.slot path = .ok ⟨parent, some name, false⟩ ∧
        Placed tree after (parent ++ [name]) tree.newFileMode content ∧
        after.asAdministrator.readText path =
          match Utf8.decode? content with
          | some text => .ok text
          | none => .error (.io path .notText) := by
  obtain ⟨ended, clear⟩ := replaceFile_replaced wellFormed single vacant replaced
  refine ⟨clear, ?_⟩
  cases ended with
  | failed => rfl
  | @standing location number mode old leads found =>
    have named : location ≠ [] := by
      rintro rfl
      cases found
    have placed := placed_put tree location named mode content
    have refiled : tree.Refiled (tree.put location (.file tree.freshNumber mode content)) :=
      refiled_put tree named rfl (by simp [found, Entry.number?])
    refine .inl ⟨location, number, mode, old, leads, found, placed, ?_⟩
    have located := refiled.locate_asAdministrator leads
    by_cases long : longestPath < path.length
    · rw [if_pos long] at located ⊢
      rw [readText_eq, readFile, located]
      rfl
    · rw [if_neg long] at located ⊢
      obtain ⟨fresh, here, -⟩ := placed.new
      exact readText_asAdministrator located here
  | @missing parent name leads names short free =>
    have placed := placed_put tree (parent ++ [name]) (by simp) tree.newFileMode content
    refine .inr ⟨parent, name, leads, slot_eq_ok_iff.mpr names, placed, ?_⟩
    obtain ⟨fresh, here, -⟩ := placed.new
    have after : FileTree.Names (tree.put (parent ++ [name])
        (.file tree.freshNumber tree.newFileMode content)) path parent name :=
      names.of_missing leads rfl free
    have there := after.locate short ⟨_, here, rfl⟩
    exact readText_asAdministrator (locate_asAdministrator there) here

/-- A directory with a program under two names and a link to the first of them. -/
def programTree : FileTree where
  entries :=
    let directory := Utf8.encode "bin".toList
    let program := .file 3 0o4755 (Utf8.encode "old".toList)
    [([directory], .directory 0o755),
     ([directory, Utf8.encode "first".toList], program),
     ([directory, Utf8.encode "second".toList], program),
     ([directory, Utf8.encode "link".toList], .link (Utf8.encode "../bin/./first".toList))]
  workingDirectory := [Utf8.encode "bin".toList]
  caller := .owner
  mask := 0o022

/-- Behind a link, the first name of a program gets new content and keeps its bits. -/
theorem replaceFile_all_or_nothing_link :
    programTree.WellFormed ∧ '/' ∉ "7".toList ∧
      (∀ temporary, programTree.temporaryPath "7".toList (Utf8.encode "link".toList) =
        .ok temporary → programTree.Vacant temporary) ∧
      ∃ after, programTree.replaceFile "7".toList (Utf8.encode "link".toList)
          (Utf8.encode "new".toList) = (.ok (), after) ∧
        Placed programTree after [Utf8.encode "bin".toList, Utf8.encode "first".toList] 0o4755
          (Utf8.encode "new".toList) ∧
        after.asAdministrator.readText (Utf8.encode "link".toList) = .ok "new".toList := by
  have wellFormed : programTree.WellFormed := ⟨by decide, by decide⟩
  have single : '/' ∉ "7".toList := by decide
  have beside : programTree.temporaryPath "7".toList (Utf8.encode "link".toList) =
      .ok (Utf8.encode "/bin/.first.7.tmp".toList) := by
    cbv
  have slot : programTree.slot (Utf8.encode "/bin/.first.7.tmp".toList) =
      .ok ⟨[Utf8.encode "bin".toList], some (Utf8.encode ".first.7.tmp".toList), false⟩ := by
    cbv
  have vacant : ∀ temporary, programTree.temporaryPath "7".toList (Utf8.encode "link".toList) =
      .ok temporary → programTree.Vacant temporary := by
    intro temporary known
    cases beside.symm.trans known
    exact vacant_of_absent slot rfl (by decide)
  obtain ⟨after, replaced⟩ : ∃ after, programTree.replaceFile "7".toList
      (Utf8.encode "link".toList) (Utf8.encode "new".toList) = (.ok (), after) :=
    ⟨_, Prod.ext (by cbv) rfl⟩
  have leads : programTree.canonical (Utf8.encode "link".toList) =
      .ok [Utf8.encode "bin".toList, Utf8.encode "first".toList] := by
    cbv
  obtain ⟨-, ended⟩ := replaceFile_all_or_nothing wellFormed single vacant replaced
  rcases ended with ⟨location, number, mode, old, there, found, placed, read⟩ |
    ⟨parent, name, missing, -⟩
  · cases leads.symm.trans there
    cases found
    exact ⟨wellFormed, single, vacant, after, replaced, placed, read.trans (by cbv)⟩
  · cases leads.symm.trans missing

/-! ## Paths that cannot be read in one piece -/

/-- A path with steps into the same directory in front of a name. -/
def padded (steps : Nat) (name : Name) : Bytes :=
  (List.replicate steps [0x2E, slash]).flatten ++ name

theorem length_padded (steps : Nat) (name : Name) :
    (padded steps name).length = 2 * steps + name.length := by
  simp [padded, Nat.mul_comm]

theorem padded_ne_nil (written : name ≠ []) (steps : Nat) : padded steps name ≠ [] := by
  intro none
  exact written (List.append_eq_nil_iff.mp none).2

theorem pathNames_padded (plain : IsPlain name) (steps : Nat) :
    pathNames (padded steps name) = List.replicate steps dot ++ [name] := by
  obtain ⟨written, -, -, clean⟩ := plain
  induction steps with
  | zero => simp [padded, pathNames, parts_of_not_mem clean, written]
  | succ steps ih =>
    have whole : padded (steps + 1) name = dot ++ slash :: padded steps name := by
      simp [padded, List.replicate_succ, dot]
    rw [whole, pathNames, parts_append (by decide), List.filter_cons_of_pos (by decide),
      List.replicate_succ, List.cons_append, ← ih]
    rfl

theorem endsInSlash_padded (plain : IsPlain name) (steps : Nat) :
    endsInSlash (padded steps name) = false := by
  obtain ⟨written, -, -, clean⟩ := plain
  have last := endsInSlash_childPath clean written []
  rw [childPath, if_pos (.inl rfl), List.nil_append] at last
  rw [endsInSlash, padded, List.getLast?_append_of_ne_nil _ written]
  exact last

/-- Steps into the same directory lead nowhere else. -/
theorem leads_padded {tree : FileTree} {manner : Manner} (enters : tree.Enters manner here dot)
    (steps : Nat) (rest : List Name) :
    tree.Leads manner here (List.replicate steps dot ++ rest) 0 here rest := by
  induction steps with
  | zero => exact .refl
  | succ steps ih => exact .hop (.stay enters (.inr rfl)) ih

/-- One file in the root of the file system. -/
def singleTree : FileTree where
  entries := [([Utf8.encode "f".toList], .file 0 0o644 (Utf8.encode "old".toList))]
  workingDirectory := []
  caller := .administrator
  mask := 0o022

theorem zero_not_mem_padded (clean : 0 ∉ name) (steps : Nat) : 0 ∉ padded steps name := by
  unfold padded
  simp only [List.mem_append, List.mem_flatten, List.mem_replicate]
  rintro (⟨_, ⟨-, rfl⟩, member⟩ | member)
  · revert member
    decide
  · exact clean member

/-- However many steps there are, the path leads to the file. -/
theorem canonical_padded (steps : Nat) :
    singleTree.canonical (padded steps (Utf8.encode "f".toList)) =
      .ok [Utf8.encode "f".toList] := by
  have plain : IsPlain (Utf8.encode "f".toList) := by decide
  have names : walkNames (padded steps (Utf8.encode "f".toList)) =
      List.replicate steps dot ++ [Utf8.encode "f".toList] := by
    rw [walkNames, pathNames_padded plain, endsInSlash_padded plain]
    exact List.append_nil _
  have start : singleTree.startOf (padded steps (Utf8.encode "f".toList)) = [] := by
    unfold startOf
    split <;> rfl
  have enters (other : Name) (way : singleTree.demandWay [] other = .ok ()) :
      singleTree.Enters .workedOut [] other :=
    ⟨rfl, fun _ => rfl, fun _ => way⟩
  have last : singleTree.Hop .workedOut [] [Utf8.encode "f".toList] 0 [Utf8.encode "f".toList] [] :=
    .down (enters _ rfl) ⟨by decide, by decide, by decide, by decide⟩ rfl rfl
  apply canonical_of_leads (zero_not_mem_padded (by decide) steps) (padded_ne_nil (by decide) steps)
    (Nat.zero_le _)
  rw [names, start]
  exact (leads_padded (enters dot rfl) steps _).trans (.hop last .refl)

/-- A file can be replaced under a path that is too long to read it under: the path is worked out
name by name for the one and handed to the system in one piece for the other. -/
theorem long_path_not_read_back :
    singleTree.WellFormed ∧ '/' ∉ "7".toList ∧
      (∀ temporary, singleTree.temporaryPath "7".toList
        (padded 2048 (Utf8.encode "f".toList)) = .ok temporary → singleTree.Vacant temporary) ∧
      singleTree.canonical (padded 2048 (Utf8.encode "f".toList)) = .ok [Utf8.encode "f".toList] ∧
      ∃ after, singleTree.replaceFile "7".toList (padded 2048 (Utf8.encode "f".toList))
          (Utf8.encode "new".toList) = (.ok (), after) ∧
        after.asAdministrator.readText (padded 2048 (Utf8.encode "f".toList)) =
          .error (.io (padded 2048 (Utf8.encode "f".toList)) .nameTooLong) ∧
        Utf8.decode? (Utf8.encode "new".toList) = some "new".toList := by
  have leads := canonical_padded 2048
  have wellFormed : singleTree.WellFormed := ⟨by decide, by decide⟩
  have named : Replacement.targetOf (padded 2048 (Utf8.encode "f".toList))
      ((singleTree.canonical (padded 2048 (Utf8.encode "f".toList))).map Location.path) =
        .ok (Utf8.encode "/f".toList) := by
    rw [leads]
    rfl
  have beside : singleTree.temporaryPath "7".toList (padded 2048 (Utf8.encode "f".toList)) =
      .ok (Utf8.encode "/.f.7.tmp".toList) := by
    rw [temporaryPath, named]
    cbv
  have slot : singleTree.slot (Utf8.encode "/.f.7.tmp".toList) =
      .ok ⟨[], some (Utf8.encode ".f.7.tmp".toList), false⟩ := by
    cbv
  have planned : Replacement.plan "7".toList singleTree (padded 2048 (Utf8.encode "f".toList))
      (Utf8.encode "new".toList) = .ok ⟨Utf8.encode "/f".toList, Utf8.encode "/.f.7.tmp".toList,
        Utf8.encode "new".toList⟩ := by
    rw [Replacement.plan_eq, named]
    cbv
  obtain ⟨after, replaced⟩ : ∃ after, singleTree.replaceFile "7".toList
      (padded 2048 (Utf8.encode "f".toList)) (Utf8.encode "new".toList) = (.ok (), after) := by
    rw [replaceFile_eq, planned]
    exact ⟨_, Prod.ext (by cbv) rfl⟩
  have long : longestPath < (padded 2048 (Utf8.encode "f".toList)).length := by
    rw [length_padded]
    decide
  refine ⟨wellFormed, by decide, ?_, leads, after, replaced, ?_, by cbv⟩
  · intro temporary known
    cases beside.symm.trans known
    exact vacant_of_absent slot rfl (by decide)
  · have refused : after.asAdministrator.locate (padded 2048 (Utf8.encode "f".toList)) =
        .error .nameTooLong := by
      rw [locate, checkPath, if_neg (zero_not_mem_padded (by decide) 2048),
        if_neg (padded_ne_nil (by decide) 2048), if_pos long]
      rfl
    rw [readText_eq, readFile, refused]
    rfl

end ReleasePicker.Files
