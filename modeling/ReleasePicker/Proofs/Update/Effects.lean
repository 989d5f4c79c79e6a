import Mathlib
import ReleasePicker.Proofs.Files.Readings
import ReleasePicker.Proofs.Options.Refusals
import ReleasePicker.Update.Run

/-!
What a run does to a tree. Everything that can be wrong with a request is found before anything is
written, in a fixed order, and then at most one file changes.
-/
namespace ReleasePicker.Update

open Files Options

/-- The path of the workflow that a request names. -/
def Request.path (request : Request) : Bytes :=
  (SlashPath.resolve request.root request.file).bytes

/-- The entries that a request asks for: the trimmed default entry in front of the releases. -/
def Request.entries (request : Request) : List Text :=
  Text.trim request.defaultEntry :: (ReleaseList.ofText request.releases).releases

/-- What stands in the way of a request before anything is written. -/
inductive Refused (tree : FileTree) (request : Request) : Failure → Prop where
  | blank (blank : Text.trim request.defaultEntry = []) : Refused tree request .blankDefault
  | unreadable (given : Text.trim request.defaultEntry ≠ [])
      (failed : tree.readText request.path = .error error) : Refused tree request (.file error)
  | unrevised (given : Text.trim request.defaultEntry ≠ [])
      (read : tree.readText request.path = .ok content)
      (refused : Refusal content request.entries error) :
      Refused tree request (.revision request.path error)

/-- A request that nothing stands in the way of, with the content that it reads and the revision of
it. -/
structure Accepted (tree : FileTree) (request : Request) (content : Text) (revision : Revision) :
    Prop where
  given : Text.trim request.defaultEntry ≠ []
  read : tree.readText request.path = .ok content
  revised : replaceEntries content request.entries = .ok revision

/-- A tree that differs from another one only in the content of the file that a path leads to. The
name there has a file of its own now, with the bits of the old one, so that other names of the old
file keep what they had. -/
def Rewritten (before after : FileTree) (path old new : Bytes) : Prop :=
  ∃ location number mode fresh,
    before.locate path = .ok location ∧
    before.entry? location = some (.file number mode old) ∧
    (∀ place entry, before.entry? place = some entry → entry.number? ≠ some fresh) ∧
    (∀ place, after.entry? place =
      if place = location then some (.file fresh mode new) else before.entry? place) ∧
    after.entries.map Prod.fst = before.entries.map Prod.fst ∧
    after.workingDirectory = before.workingDirectory ∧ after.caller = before.caller ∧
    after.mask = before.mask

theorem refused_or_accepted (tree : FileTree) (request : Request) :
    (∃ failure, Refused tree request failure) ∨
      ∃ content revision, Accepted tree request content revision := by
  by_cases given : Text.trim request.defaultEntry = []
  · exact .inl ⟨_, .blank given⟩
  cases read : tree.readText request.path with
  | error error => exact .inl ⟨_, .unreadable given read⟩
  | ok content =>
    cases revised : replaceEntries content request.entries with
    | error error =>
      exact .inl ⟨_, .unrevised given read (replaceEntries_eq_error_iff.mp revised)⟩
    | ok revision => exact .inr ⟨content, revision, given, read, revised⟩

/-! ## Case by case -/

/-- A request that makes sense, worked out. -/
def Request.worked (request : Request) : Plan :=
  ⟨SlashPath.resolve request.root request.file, ReleaseList.ofText request.releases,
    request.entries, request.dryRun⟩

theorem plan_eq (request : Request) : request.plan =
    if Text.trim request.defaultEntry = [] then .error .blankDefault else .ok request.worked :=
  rfl

theorem run_of_refused {tree : FileTree} {request : Request} {failure : Failure}
    (refused : Refused tree request failure) (tag : Text) :
    (run tag tree request).1.result = .error failure ∧ (run tag tree request).2 = tree := by
  rw [run_eq, plan_eq]
  cases refused with
  | blank blank => simp only [if_pos blank, and_self]
  | unreadable given failed =>
    have read : tree.readText request.worked.path.bytes = _ := failed
    simp only [if_neg given, read, and_self]
  | @unrevised content error given read refused =>
    have read : tree.readText request.worked.path.bytes = _ := read
    have refused := replaceEntries_eq_error_iff.mpr refused
    have revised : request.worked.revise content = .error (.revision request.path error) :=
      congrArg (Except.mapError (Failure.revision request.path)) refused
    simp only [if_neg given, read, revised, and_self]

theorem Accepted.revise {tree : FileTree} {request : Request} {content : Text}
    {revision : Revision} (accepted : Accepted tree request content revision) :
    request.worked.revise content = .ok revision :=
  congrArg (Except.mapError (Failure.revision request.path)) accepted.revised

/-- Nothing is written for a revision that is not to be written. -/
theorem run_of_kept {tree : FileTree} {request : Request} {content : Text} {revision : Revision}
    (accepted : Accepted tree request content revision)
    (kept : request.worked.writes revision = false) (tag : Text) :
    (run tag tree request).1.result = .ok (request.worked.report content revision) ∧
      (run tag tree request).2 = tree := by
  have read : tree.readText request.worked.path.bytes = _ := accepted.read
  rw [run_eq, plan_eq]
  simp only [if_neg accepted.given, read, accepted.revise, kept, Bool.false_eq_true, if_false,
    and_self]

/-- A revision that is to be written stands or falls with the replacement of the file. -/
theorem run_of_written {tree : FileTree} {request : Request} {content : Text}
    {revision : Revision} (accepted : Accepted tree request content revision)
    (written : request.worked.writes revision = true) {tag : Text} {result : Except FileError Unit}
    {after : FileTree}
    (replaced : tree.replaceFile tag request.path (Utf8.encode revision.content) =
      (result, after)) :
    (run tag tree request).1.result =
        (result.mapError .file).map (fun _ => request.worked.report content revision) ∧
      (run tag tree request).2 = after := by
  have read : tree.readText request.worked.path.bytes = _ := accepted.read
  have replaced : tree.replaceFile tag request.worked.path.bytes _ = _ := replaced
  rw [run_eq, plan_eq]
  simp only [if_neg accepted.given, read, accepted.revise, written, if_true, replaced]
  cases result <;> exact ⟨rfl, rfl⟩

/-! ## What is read and what is written -/

/-- A text that was read is the content of a file. -/
theorem exists_file_of_readText {tree : FileTree} {path : Bytes} {content : Text}
    (read : tree.readText path = .ok content) :
    ∃ location number mode, tree.locate path = .ok location ∧
      tree.entry? location = some (.file number mode (Utf8.encode content)) := by
  obtain ⟨bytes, read, decoded⟩ := asText_eq_ok_iff.mp read
  obtain ⟨location, number, mode, located, -, found⟩ := FileTree.readFile_eq_ok_iff.mp read
  rw [Utf8.encode_of_decode? decoded]
  exact ⟨location, number, mode, located, found⟩

/-- A file that is replaced is rewritten or, if that fails, left alone. -/
theorem rewritten_of_replaceFile {tree after : FileTree} {tag : Text} {path : Bytes}
    {content : Text} {new : Bytes} {result : Except FileError Unit}
    (wellFormed : tree.WellFormed) (single : '/' ∉ tag) (spared : tree.SparesTemporary tag path)
    (read : tree.readText path = .ok content)
    (replaced : tree.replaceFile tag path new = (result, after)) :
    match result with
    | .error _ => after = tree
    | .ok () => Rewritten tree after path (Utf8.encode content) new := by
  obtain ⟨location, number, mode, located, found⟩ := exists_file_of_readText read
  rcases (canonical_of_locate located).symm with ⟨fault, other, refused⟩ | leads
  · cases (replaceFile_of_refused refused other).symm.trans replaced
    rfl
  have named : location ≠ [] := by
    rintro rfl
    cases found
  obtain ⟨ended, -⟩ := replaceFile_replaced wellFormed single
    (fun _ known => spared.vacant wellFormed single leads named known) replaced
  cases ended with
  | failed => rfl
  | standing leads' found' =>
    cases leads.symm.trans leads'
    cases found.symm.trans found'
    exact ⟨location, number, mode, tree.freshNumber, located, found,
      fun _ _ => FileTree.number?_ne_of_found, FileTree.entry?_put tree named _,
      FileTree.places_put named found _, FileTree.workingDirectory_put _ _ _,
      FileTree.caller_put _ _ _, FileTree.mask_put _ _ _⟩
  | missing leads' => cases leads.symm.trans leads'

/-! ## All that can happen -/

/-- How a run can end, and the tree that it leaves. -/
inductive Ends (tag : Text) (tree : FileTree) (request : Request) :
    Except Failure Report → FileTree → Prop where
  | refused (refused : Refused tree request reason) : Ends tag tree request (.error reason) tree
  | kept (accepted : Accepted tree request content revision)
      (idle : revision.content = content ∨ request.dryRun = true) :
      Ends tag tree request (.ok (request.worked.report content revision)) tree
  | failed (accepted : Accepted tree request content revision)
      (changed : revision.content ≠ content) (real : request.dryRun = false)
      (failed : (tree.replaceFile tag request.path (Utf8.encode revision.content)).1 =
        .error error) :
      Ends tag tree request (.error (.file error)) tree
  | written (accepted : Accepted tree request content revision)
      (changed : revision.content ≠ content) (real : request.dryRun = false)
      (rewritten : Rewritten tree after request.path (Utf8.encode content)
        (Utf8.encode revision.content)) :
      Ends tag tree request (.ok (request.worked.report content revision)) after

theorem Accepted.writes_iff {tree : FileTree} {request : Request} {content : Text}
    {revision : Revision} (accepted : Accepted tree request content revision) :
    request.worked.writes revision = true ↔
      revision.content ≠ content ∧ request.dryRun = false := by
  rw [Plan.writes, Bool.and_eq_true, changed_iff accepted.revised, Bool.not_eq_true']
  rfl

theorem run_ends {tag : Text} {tree : FileTree} (request : Request) (wellFormed : tree.WellFormed)
    (single : '/' ∉ tag) (spared : tree.SparesTemporary tag request.path) :
    Ends tag tree request (run tag tree request).1.result (run tag tree request).2 := by
  rcases refused_or_accepted tree request with ⟨reason, refused⟩ | ⟨content, revision, accepted⟩
  · obtain ⟨failed, same⟩ := run_of_refused refused tag
    rw [failed, same]
    exact .refused refused
  · by_cases writes : request.worked.writes revision = true
    · obtain ⟨changed, real⟩ := accepted.writes_iff.mp writes
      obtain ⟨⟨result, after⟩, replaced⟩ : ∃ outcome, tree.replaceFile tag request.path
          (Utf8.encode revision.content) = outcome := ⟨_, rfl⟩
      obtain ⟨done, left⟩ := run_of_written accepted writes replaced
      have effect := rewritten_of_replaceFile wellFormed single spared accepted.read replaced
      rw [done, left]
      cases result with
      | error error =>
        have same : after = tree := effect
        rw [same]
        exact .failed accepted changed real (congrArg Prod.fst replaced)
      | ok _ => exact .written accepted changed real effect
    · have idle : revision.content = content ∨ request.dryRun = true := by
        by_contra neither
        exact writes (accepted.writes_iff.mpr (by simpa using neither))
      obtain ⟨done, same⟩ := run_of_kept accepted (by simpa using writes) tag
      rw [done, same]
      exact .kept accepted idle

/-- A run that fails leaves nothing behind. -/
theorem Ends.tree_eq (ends : Ends tag tree request (.error reason) after) : after = tree := by
  cases ends with
  | refused => rfl
  | failed => rfl

/-- A run that succeeds reports what it did. -/
theorem Ends.report_agrees (ends : Ends tag tree request (.ok report) after) :
    ∃ content revision, Accepted tree request content revision ∧
      (report.changed = true ↔ revision.content ≠ content) ∧
      report.dryRun = request.dryRun ∧
      report.written = (report.changed && !report.dryRun) ∧
      (report.written = false → after = tree) ∧
      (report.written = true → Rewritten tree after request.path (Utf8.encode content)
        (Utf8.encode revision.content)) := by
  cases ends with
  | @kept content revision accepted idle =>
    refine ⟨content, revision, accepted, changed_iff accepted.revised, rfl, rfl, fun _ => rfl, ?_⟩
    intro written
    obtain ⟨changed, real⟩ := accepted.writes_iff.mp written
    rcases idle with same | dry
    · exact absurd same changed
    · rw [real] at dry
      cases dry
  | @written content revision _ accepted changed real rewritten =>
    refine ⟨content, revision, accepted, changed_iff accepted.revised, rfl, rfl, ?_,
      fun _ => rewritten⟩
    intro unwritten
    have writes : request.worked.writes revision = true :=
      accepted.writes_iff.mpr ⟨changed, real⟩
    have unwritten : request.worked.writes revision = false := unwritten
    rw [writes] at unwritten
    cases unwritten

/-- A revision that is to be written and cannot be makes the run fail. -/
theorem run_of_failed {tag : Text} {tree : FileTree} {request : Request} {content : Text}
    {revision : Revision} (accepted : Accepted tree request content revision)
    (changed : revision.content ≠ content) (real : request.dryRun = false)
    (failed : (tree.replaceFile tag request.path (Utf8.encode revision.content)).1 =
      .error error) :
    (run tag tree request).1.result = .error (.file error) := by
  have writes := accepted.writes_iff.mpr ⟨changed, real⟩
  have replaced : tree.replaceFile tag request.path (Utf8.encode revision.content) =
      (.error error, _) := Prod.ext failed rfl
  exact (run_of_written accepted writes replaced).1

/-- **A run changes one file at most, and only if nothing goes wrong.** It fails exactly for a
reason that stands in its way, of which a blank default entry comes first, then a file that cannot
be read, then a content without a key line, then the first entry that is not on one line; or else
because the file cannot be replaced, if its content is to change and the run is not only to try. A
run that fails leaves the tree as it was, and so does one that writes nothing. A run that writes
changes the content of the one file that the path leads to, links followed, from the text that it
read to the revision of it, and nothing else. The tag is the number of a process, so there is no
slash in it. -/
theorem run_effects {tag : Text} {tree : FileTree} {request : Request} {outcome : Outcome}
    {after : FileTree} (wellFormed : tree.WellFormed) (single : '/' ∉ tag)
    (spared : tree.SparesTemporary tag request.path)
    (ran : run tag tree request = (outcome, after)) :
    (∀ failure, outcome.result = .error failure ↔ Refused tree request failure ∨
      ∃ content revision error, Accepted tree request content revision ∧
        revision.content ≠ content ∧ request.dryRun = false ∧
        (tree.replaceFile tag request.path (Utf8.encode revision.content)).1 = .error error ∧
        failure = .file error) ∧
    (∀ failure, outcome.result = .error failure → after = tree) ∧
    ∀ report, outcome.result = .ok report →
      ∃ content revision, Accepted tree request content revision ∧
        (report.changed = true ↔ revision.content ≠ content) ∧
        report.dryRun = request.dryRun ∧
        report.written = (report.changed && !report.dryRun) ∧
        (report.written = false → after = tree) ∧
        (report.written = true → Rewritten tree after request.path (Utf8.encode content)
          (Utf8.encode revision.content)) := by
  have ends := run_ends request wellFormed single spared
  rw [ran] at ends
  dsimp only at ends
  refine ⟨fun reason => ⟨fun known => ?_, ?_⟩, fun reason known => ?_, fun report known => ?_⟩
  · rw [known] at ends
    cases ends with
    | refused refused => exact .inl refused
    | failed accepted changed real failed =>
      exact .inr ⟨_, _, _, accepted, changed, real, failed, rfl⟩
  · rintro (refused | ⟨content, revision, error, accepted, changed, real, failed, rfl⟩)
    · have known := (run_of_refused refused tag).1
      rwa [ran] at known
    · have known := run_of_failed accepted changed real failed
      rwa [ran] at known
  · rw [known] at ends
    exact ends.tree_eq
  · rw [known] at ends
    exact ends.report_agrees

/-- A directory with a workflow under two names and a link to the first of them. -/
def linkedTree : FileTree where
  entries :=
    let directory := Utf8.encode "ci".toList
    let workflow := .file 0 0o640 (Utf8.encode "options:\n".toList)
    [([directory], .directory 0o755),
     ([directory, Utf8.encode "first".toList], workflow),
     ([directory, Utf8.encode "second".toList], workflow),
     ([directory, Utf8.encode "link".toList], .link (Utf8.encode "./first".toList))]
  workingDirectory := [Utf8.encode "ci".toList]
  caller := .owner
  mask := 0o022

/-- A request for the workflow that the link leads to. -/
def linkRequest : Request where
  root := Utf8.encode ".".toList
  file := Utf8.encode "link".toList
  releases := "v2\nv1\n".toList
  defaultEntry := " none ".toList
  dryRun := false

/-- Behind a link, the first name of a file gets new content and the second keeps the old one. -/
theorem run_effects_link :
    linkedTree.WellFormed ∧ '/' ∉ "7".toList ∧
      linkedTree.SparesTemporary "7".toList linkRequest.path ∧
      Rewritten linkedTree (run "7".toList linkedTree linkRequest).2 linkRequest.path
        (Utf8.encode "options:\n".toList)
        (Utf8.encode "options:\n  - 'none'\n  - 'v2'\n  - 'v1'\n".toList) := by
  have wellFormed : linkedTree.WellFormed := ⟨by decide, by decide⟩
  have single : '/' ∉ "7".toList := by decide
  have resolved : linkedTree.canonical linkRequest.path =
      .ok [Utf8.encode "ci".toList, Utf8.encode "first".toList] := by
    cbv
  have spared : linkedTree.SparesTemporary "7".toList linkRequest.path := by
    intro location found
    cases resolved.symm.trans found
    decide
  have known : linkedTree.readText linkRequest.path = .ok "options:\n".toList := by
    cbv
  obtain ⟨-, -, succeeded⟩ := run_effects wellFormed single spared rfl
  obtain ⟨report, finished, written⟩ : ∃ report,
      (run "7".toList linkedTree linkRequest).1.result = .ok report ∧ report.written = true :=
    ⟨_, by cbv, rfl⟩
  obtain ⟨content, revision, accepted, -, -, -, -, rewritten⟩ := succeeded report finished
  cases known.symm.trans accepted.read
  cases accepted.revised
  exact ⟨wellFormed, single, spared, rewritten written⟩

end ReleasePicker.Update
