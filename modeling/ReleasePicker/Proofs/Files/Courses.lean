import Mathlib
import ReleasePicker.Files.Course
import ReleasePicker.Proofs.Files.Readings

/-!
Nobody ever sees a part of a replacement at its target. Until the target is taken over, the tree is
as it was but for the temporary file, and the target has other names and another number than that;
after it has been taken over, nothing is left to happen.
-/
namespace ReleasePicker.Files

open FileTree

variable {tree : FileTree} {tag : Text} {path : Bytes} {location : Location}

namespace Course

/-! ## The run of the program -/

/-- No steps are left if all of them were taken. -/
def lastStage (result : Except FileError Unit) (failed : Stage) : Stage :=
  match result with
  | .ok () => .ahead []
  | .error _ => failed

theorem Reached.ahead {replacement : Replacement} {earlier : List Step} (steps : List Step)
    {now after : FileTree} {result : Except FileError Unit}
    (reached : Reached replacement tree ⟨now, earlier, .ahead steps⟩)
    (performed : Replacement.performAll now steps = (result, after)) :
    ∃ last, Reached replacement tree ⟨after, last, lastStage result .failing⟩ := by
  induction steps generalizing now earlier with
  | nil =>
    cases performed
    exact ⟨earlier, reached⟩
  | cons step rest ih =>
    cases once : step.perform now with
    | ok next =>
      rw [performAll_ok once] at performed
      exact ih (reached.next (.take once)) performed
    | error fault =>
      rw [performAll_error once] at performed
      cases performed
      exact ⟨earlier, reached.next .fail⟩

/-- Carrying a replacement out at one go is one way for it to happen. -/
theorem reached_perform {replacement : Replacement} {result : Except FileError Unit}
    {after : FileTree} (performed : replacement.perform tree = (result, after)) :
    ∃ earlier, Reached replacement tree ⟨after, earlier, lastStage result .ended⟩ := by
  obtain ⟨⟨first, now⟩, stepped⟩ :
      ∃ outcome, Replacement.performAll tree replacement.steps = outcome := ⟨_, rfl⟩
  obtain ⟨earlier, reached⟩ := Reached.start.ahead _ stepped
  rw [Replacement.perform_eq, stepped] at performed
  cases first with
  | ok _ =>
    cases performed
    exact ⟨earlier, reached⟩
  | error error =>
    dsimp only at performed
    cases removed : now.unlink replacement.temporary with
    | ok rest =>
      rw [removed] at performed
      cases performed
      exact ⟨earlier, reached.next (.clear removed)⟩
    | error fault =>
      rw [removed] at performed
      cases performed
      exact ⟨earlier, reached.next .leave⟩

end Course

/-! ## The tree before the target is taken over -/

/-- The trees that there are before the target is taken over. -/
inductive Staging (tree : FileTree) (temporary : Bytes) : FileTree → Prop where
  | without : Staging tree temporary tree
  | having (ready : Ready tree temporary parent name) :
      Staging tree temporary (tree.staged parent name mode content)

namespace Staging

variable {temporary : Bytes} {now : FileTree}

theorem refiled (staging : Staging tree temporary now) : tree.Refiled now := by
  cases staging with
  | without => exact .refl tree
  | having ready => exact ready.refiled _ _

theorem entry?_eq (staging : Staging tree temporary now)
    (found : tree.entry? location = some entry) :
    now.entry? location = some entry := by
  cases staging with
  | without => exact found
  | @having parent name mode content ready =>
    have away : location ≠ parent ++ [name] := by
      rintro rfl
      rw [ready.absent] at found
      cases found
    rw [staged, entry?_put tree (by simp), if_neg away, found]

/-- Taking the temporary file away brings the tree back. -/
theorem unlink_eq (staging : Staging tree temporary now) (vacant : tree.Vacant temporary)
    (removed : now.unlink temporary = .ok after) : after = tree := by
  cases staging with
  | without =>
    obtain ⟨fault, failed⟩ := unlink_eq_error vacant
    cases failed.symm.trans removed
  | having ready =>
    cases (unlink_staged ready _ _).symm.trans removed
    rfl

end Staging

/-! ## What each step does -/

/-- The steps ahead and the tree that they find, for a replacement that has not been stopped. -/
inductive Underway (tree : FileTree) (target temporary : Bytes) (content : Bytes) :
    FileTree → List Step → Prop where
  | start : Underway tree target temporary content tree
      (Replacement.mk target temporary content).steps
  | writing (ready : Ready tree temporary parent name) (whole : written ++ more = content) :
      Underway tree target temporary content (tree.staged parent name tree.newFileMode written)
        [.write temporary more, .sync temporary, .keepMode temporary target,
          .takeOver temporary target]
  | written (ready : Ready tree temporary parent name) :
      Underway tree target temporary content (tree.staged parent name tree.newFileMode content)
        [.sync temporary, .keepMode temporary target, .takeOver temporary target]
  | synced (ready : Ready tree temporary parent name) :
      Underway tree target temporary content (tree.staged parent name tree.newFileMode content)
        [.keepMode temporary target, .takeOver temporary target]
  | kept (ready : Ready tree temporary parent name) :
      Underway tree target temporary content
        (tree.staged parent name (tree.keptFrom parent name target content) content)
        [.takeOver temporary target]

variable {target temporary content : Bytes}

theorem Underway.staging (underway : Underway tree target temporary content now steps) :
    Staging tree temporary now := by
  cases underway with
  | start => exact .without
  | writing ready | written ready | synced ready | kept ready => exact .having ready

/-- A part of the content goes behind what has been written. -/
theorem Underway.write
    (underway : Underway tree target temporary content now (.write other (part ++ more) :: rest))
    (performed : (Step.write other part).perform now = .ok after) :
    Underway tree target temporary content after (.write other more :: rest) := by
  cases underway with
  | @writing parent name written _ ready whole =>
    have appended := write_staged ready tree.newFileMode written part
    cases appended.symm.trans performed
    apply Underway.writing ready
    rw [List.append_assoc, whole]

/-- What a replacement has to find for its steps to go right. -/
structure Suited (tree : FileTree) (target temporary : Bytes) (location : Location) (mode : Nat) :
    Prop where
  vacant : tree.Vacant temporary
  creates : ∀ now, tree.createFile temporary = .ok now →
    ∃ parent name, Ready tree temporary parent name ∧
      now = tree.staged parent name tree.newFileMode []
  meets : ∀ parent name content now, Ready tree temporary parent name →
    Step.perform (tree.staged parent name (tree.keptFrom parent name target content) content)
      (.takeOver temporary target) = .ok now →
    now = tree.put location (.file tree.freshNumber mode content)

/-- A step that does not take the target over leads to the next one, and one that does puts the new
file in its place. -/
theorem Underway.take (suited : Suited tree target temporary location mode)
    (underway : Underway tree target temporary content now (step :: rest))
    (performed : step.perform now = .ok after) :
    (step.takesOver = false ∧ Underway tree target temporary content after rest) ∨
      (step.takesOver = true ∧ rest = [] ∧
        after = tree.put location (.file tree.freshNumber mode content)) := by
  cases underway with
  | start =>
    rw [Step.create_perform] at performed
    obtain ⟨parent, name, ready, rfl⟩ := suited.creates after performed
    exact .inl ⟨rfl, .writing ready rfl⟩
  | @writing parent name written more ready whole =>
    have appended := write_staged ready tree.newFileMode written more
    cases appended.symm.trans performed
    rw [whole]
    exact .inl ⟨rfl, .written ready⟩
  | written ready =>
    cases (sync_staged ready tree.newFileMode content).symm.trans performed
    exact .inl ⟨rfl, .synced ready⟩
  | synced ready =>
    cases (keepMode_staged ready target content).symm.trans performed
    exact .inl ⟨rfl, .kept ready⟩
  | kept ready => exact .inr ⟨rfl, rfl, suited.meets _ _ _ _ ready performed⟩

/-! ## What is true at every moment -/

/-- A moment of a replacement that goes right so far. -/
inductive Sound (tree : FileTree) (target temporary content : Bytes) (location : Location)
    (mode : Nat) : Course → Prop where
  | underway (underway : Underway tree target temporary content now steps)
      (before : Course.hasTakenOver ⟨now, earlier, .ahead steps⟩ = false) :
      Sound tree target temporary content location mode ⟨now, earlier, .ahead steps⟩
  | stopped (staging : Staging tree temporary now)
      (before : Course.hasTakenOver ⟨now, earlier, stage⟩ = false)
      (stopped : ∀ steps, stage ≠ .ahead steps) :
      Sound tree target temporary content location mode ⟨now, earlier, stage⟩
  | done (after : Course.hasTakenOver ⟨now, earlier, .ahead []⟩ = true)
      (replaced : now = tree.put location (.file tree.freshNumber mode content)) :
      Sound tree target temporary content location mode ⟨now, earlier, .ahead []⟩

theorem Sound.next (suited : Suited tree target temporary location mode) {before after : Course}
    (sound : Sound tree target temporary content location mode before)
    (next : Course.Next ⟨target, temporary, content⟩ before after) :
    Sound tree target temporary content location mode after := by
  cases next with
  | @take step now after earlier rest performed =>
    cases sound with
    | underway underway before =>
      rcases underway.take suited performed with ⟨quiet, underway⟩ | ⟨taking, rfl, rfl⟩
      · refine .underway underway ?_
        simpa [Course.hasTakenOver, quiet] using before
      · refine .done ?_ rfl
        simp [Course.hasTakenOver, taking]
    | stopped _ _ stopped => exact absurd rfl (stopped _)
  | write performed =>
    cases sound with
    | underway underway before =>
      refine .underway (underway.write performed) ?_
      simpa [Course.hasTakenOver, Step.takesOver] using before
    | stopped _ _ stopped => exact absurd rfl (stopped _)
  | fail =>
    cases sound with
    | underway underway before => exact .stopped underway.staging before (by simp)
    | stopped _ _ stopped => exact absurd rfl (stopped _)
  | clear removed =>
    cases sound with
    | stopped staging before =>
      rw [staging.unlink_eq suited.vacant removed]
      exact .stopped .without before (by simp)
  | leave =>
    cases sound with
    | stopped staging before => exact .stopped staging before (by simp)

theorem Sound.of_reached (suited : Suited tree target temporary location mode) {course : Course}
    (reached : Course.Reached ⟨target, temporary, content⟩ tree course) :
    Sound tree target temporary content location mode course := by
  induction reached with
  | start => exact .underway .start rfl
  | next _ next ih => exact ih.next suited next

/-! ## The target -/

/-- A file that a path leads to can be replaced under the path of its location. -/
theorem suited_of_found (wellFormed : tree.WellFormed) (single : '/' ∉ tag)
    (found : tree.entry? location = some (.file number mode old))
    (vacant : tree.Vacant
      (siblingPath location.path (Replacement.temporaryName tag location.path))) :
    Suited tree location.path
      (siblingPath location.path (Replacement.temporaryName tag location.path)) location mode := by
  obtain ⟨written, point, double, clean⟩ := temporaryName_plain single location.path
  obtain ⟨unslashed, front, ends⟩ := siblingPath_ends clean written location.path
  refine ⟨vacant, ?_, ?_⟩
  · intro now made
    rcases createFile_vacant wellFormed unslashed ends ⟨written, point, double⟩ vacant with
      ⟨parent, ready, created⟩ | ⟨fault, failed⟩
    · cases created.symm.trans made
      exact ⟨parent, _, ready, rfl⟩
    · cases failed.symm.trans made
  · intro parent name content now ready moved
    rw [Step.takeOver_perform] at moved
    have named : Replacement.temporaryName tag location.path = name := by
      have ended := ready.names.ends
      rw [ends] at ended
      exact (List.append_singleton_inj.mp ended).2
    subst named
    rcases rename_staged ready (fun _ _ => ne_temporaryName)
        (tree.keptFrom parent _ location.path content) content with
      ⟨fault, failed⟩ | ⟨place, other, names, short, -, done⟩
    · cases failed.symm.trans moved
    · cases done.symm.trans moved
      have same := names_location wellFormed found names
      subst same
      rw [keptFrom_of_found ready names short found]

/-- What everybody sees at the target at a moment of a replacement that goes right so far. -/
theorem Sound.seen (found : tree.entry? location = some (.file number mode old))
    {course : Course} (sound : Sound tree target temporary content location mode course) :
    tree.Refiled course.tree ∧
      course.tree.entry? location =
        if course.hasTakenOver then some (.file tree.freshNumber mode content)
        else some (.file number mode old) := by
  have named : location ≠ [] := by
    rintro rfl
    cases found
  cases sound with
  | underway underway before =>
    rw [before]
    exact ⟨underway.staging.refiled, underway.staging.entry?_eq found⟩
  | stopped staging before =>
    rw [before]
    exact ⟨staging.refiled, staging.entry?_eq found⟩
  | done after replaced =>
    subst replaced
    rw [after]
    refine ⟨refiled_put tree named rfl (by simp [found, Entry.number?]), ?_⟩
    exact (entry?_put tree named _ _).trans (if_pos rfl)

/-- **Nobody sees a part of a replacement.** At every moment of replacing the file that a path leads
to, however its content is cut into parts and wherever it stops or fails, the path leads to the same
name as before. There the old file stands as long as the target has not been taken over, and from
then on a new one with the whole content and the bits of the old one. Carrying the replacement out
at one go comes to such a moment, and succeeds if the target is taken over then. -/
theorem replacement_never_seen_in_part {replacement : Replacement} (wellFormed : tree.WellFormed)
    (single : '/' ∉ tag)
    (vacant : ∀ temporary, tree.temporaryPath tag path = .ok temporary → tree.Vacant temporary)
    (leads : tree.canonical path = .ok location)
    (found : tree.entry? location = some (.file number mode old))
    (planned : Replacement.plan tag tree path content = .ok replacement) :
    (∀ course, Course.Reached replacement tree course →
      course.tree.canonical path = .ok location ∧
      course.tree.entry? location =
        if course.hasTakenOver then some (.file tree.freshNumber mode content)
        else some (.file number mode old)) ∧
    ∃ course, Course.Reached replacement tree course ∧
      ((replacement.perform tree).1 = .ok () ↔ course.hasTakenOver = true) ∧
      (replacement.perform tree).2 = course.tree := by
  obtain ⟨target, named, rfl⟩ := plan_eq_ok planned
  have known := named
  rw [leads] at known
  cases known
  have suited := suited_of_found wellFormed single found
    (vacant _ (by rw [temporaryPath, named]; rfl))
  constructor
  · intro course reached
    obtain ⟨refiled, seen⟩ := (Sound.of_reached suited reached).seen found
    exact ⟨refiled.canonical wellFormed leads, seen⟩
  · obtain ⟨⟨result, after⟩, performed⟩ :
        ∃ outcome, (Replacement.ofTarget tag location.path content).perform tree = outcome :=
      ⟨_, rfl⟩
    obtain ⟨earlier, reached⟩ := Course.reached_perform performed
    have sound := Sound.of_reached suited reached
    refine ⟨_, reached, ?_, by rw [performed]⟩
    rw [performed]
    cases result with
    | ok _ =>
      cases sound with
      | underway underway => cases underway
      | stopped _ _ stopped => exact absurd rfl (stopped _)
      | done taken => exact iff_of_true rfl taken
    | error error =>
      cases sound with
      | stopped _ before => exact iff_of_false (by simp) (by simp [before])

/-- A directory with a file and a link to it. -/
def draftTree : FileTree where
  entries :=
    let directory := Utf8.encode "d".toList
    [([directory], .directory 0o755),
     ([directory, Utf8.encode "f".toList], .file 0 0o640 (Utf8.encode "old".toList)),
     ([directory, Utf8.encode "l".toList], .link (Utf8.encode "f".toList))]
  workingDirectory := []
  caller := .owner
  mask := 0o022

/-- After two bytes of three the old file stands where the link leads, and in the end the new
one. -/
theorem replacement_never_seen_in_part_halfway :
    draftTree.WellFormed ∧ '/' ∉ "7".toList ∧
      (∀ temporary, draftTree.temporaryPath "7".toList (Utf8.encode "d/l".toList) =
        .ok temporary → draftTree.Vacant temporary) ∧
      ∃ replacement, Replacement.plan "7".toList draftTree (Utf8.encode "d/l".toList)
          (Utf8.encode "new".toList) = .ok replacement ∧
        (∃ course, Course.Reached replacement draftTree course ∧
          course.taken = [.create replacement.temporary,
            .write replacement.temporary (Utf8.encode "ne".toList)] ∧
          course.tree.entry? [Utf8.encode "d".toList, Utf8.encode "f".toList] =
            some (.file 0 0o640 (Utf8.encode "old".toList))) ∧
        FileTree.entry? (replacement.perform draftTree).2
            [Utf8.encode "d".toList, Utf8.encode "f".toList] =
          some (.file 1 0o640 (Utf8.encode "new".toList)) := by
  have wellFormed : draftTree.WellFormed := ⟨by decide, by decide⟩
  have single : '/' ∉ "7".toList := by decide
  have beside : draftTree.temporaryPath "7".toList (Utf8.encode "d/l".toList) =
      .ok (Utf8.encode "/d/.f.7.tmp".toList) := by
    cbv
  have slot : draftTree.slot (Utf8.encode "/d/.f.7.tmp".toList) =
      .ok ⟨[Utf8.encode "d".toList], some (Utf8.encode ".f.7.tmp".toList), false⟩ := by
    cbv
  have vacant : ∀ temporary, draftTree.temporaryPath "7".toList (Utf8.encode "d/l".toList) =
      .ok temporary → draftTree.Vacant temporary := by
    intro temporary known
    cases beside.symm.trans known
    exact vacant_of_absent slot rfl (by decide)
  have leads : draftTree.canonical (Utf8.encode "d/l".toList) =
      .ok [Utf8.encode "d".toList, Utf8.encode "f".toList] := by
    cbv
  have planned : Replacement.plan "7".toList draftTree (Utf8.encode "d/l".toList)
      (Utf8.encode "new".toList) = .ok ⟨Utf8.encode "/d/f".toList,
        Utf8.encode "/d/.f.7.tmp".toList, Utf8.encode "new".toList⟩ := by
    cbv
  obtain ⟨always, course, reached, succeeds, same⟩ :=
    replacement_never_seen_in_part wellFormed single vacant leads rfl planned
  refine ⟨wellFormed, single, vacant, _, planned, ?_, ?_⟩
  · have cut : Utf8.encode "new".toList = Utf8.encode "ne".toList ++ Utf8.encode "w".toList := rfl
    obtain ⟨written, begun⟩ : ∃ written,
        ((Step.create (Utf8.encode "/d/.f.7.tmp".toList)).perform draftTree >>=
          (Step.perform · (.write (Utf8.encode "/d/.f.7.tmp".toList) (Utf8.encode "ne".toList)))) =
            .ok written :=
      ⟨_, by cbv⟩
    obtain ⟨created, made, appended⟩ := bind_eq_ok.mp begun
    rw [cut] at always ⊢
    have first : Course.Reached ⟨Utf8.encode "/d/f".toList, Utf8.encode "/d/.f.7.tmp".toList,
        Utf8.encode "ne".toList ++ Utf8.encode "w".toList⟩ draftTree _ := .next .start (.take made)
    have reached := first.next (.write appended)
    exact ⟨_, reached, rfl, (always _ reached).2⟩
  · rw [same, (always course reached).2, succeeds.mp (by cbv)]
    rfl

end ReleasePicker.Files
