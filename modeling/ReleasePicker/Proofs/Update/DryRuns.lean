import ReleasePicker.Proofs.Files.ReadBack
import ReleasePicker.Proofs.Update.Effects

/-!
A run that only tries tells what the run in earnest does. Both come to the same revision of the same
text, and they part only where the one in earnest is about to write.
-/
namespace ReleasePicker.Update

open Files Options

variable {tag : Text} {tree after : FileTree} {request : Request} {content : Text}
  {revision : Revision}

/-- The request to try only. -/
def Request.toTry (request : Request) : Request :=
  { request with dryRun := true }

/-- The request in earnest. -/
def Request.inEarnest (request : Request) : Request :=
  { request with dryRun := false }

/-! ## The two reports -/

/-- What a run in earnest reports, as a run that only tries reports it. -/
def Report.tried (report : Report) : Report :=
  { report with written := false, dryRun := true }

theorem report_toTry (request : Request) (content : Text) (revision : Revision) :
    request.toTry.worked.report content revision =
      (request.inEarnest.worked.report content revision).tried := by
  have unwritten : request.toTry.worked.writes revision = false := Bool.and_false _
  rw [Plan.report, unwritten]
  rfl

theorem writes_inEarnest (request : Request) (revision : Revision) :
    request.inEarnest.worked.writes revision = revision.changed :=
  Bool.and_true _

/-- Whether a run is only to try is no reason to refuse it. -/
theorem Refused.anyway (refused : Refused tree request reason) (dryRun : Bool) :
    Refused tree { request with dryRun := dryRun } reason := by
  cases refused with
  | blank blank => exact .blank blank
  | unreadable given failed => exact .unreadable given failed
  | unrevised given read refused => exact .unrevised given read refused

theorem Accepted.anyway (accepted : Accepted tree request content revision) (dryRun : Bool) :
    Accepted tree { request with dryRun := dryRun } content revision :=
  ⟨accepted.given, accepted.read, accepted.revised⟩

/-- What stands in the way of a request stands in the way of trying it. -/
theorem run_toTry_of_refused (refused : Refused tree request reason)
    (ran : run tag tree request.toTry = (outcome, after)) :
    outcome.result = .error reason ∧ after = tree := by
  have refused : Refused tree request.toTry reason := refused.anyway true
  have ended := run_of_refused refused tag
  rwa [ran] at ended

theorem run_inEarnest_of_refused (refused : Refused tree request reason)
    (ran : run tag tree request.inEarnest = (outcome, after)) : outcome.result = .error reason := by
  have refused : Refused tree request.inEarnest reason := refused.anyway false
  have ended := (run_of_refused refused tag).1
  rwa [ran] at ended

/-- To try a request that nothing stands in the way of always succeeds. -/
theorem run_toTry (accepted : Accepted tree request content revision)
    (ran : run tag tree request.toTry = (outcome, after)) :
    outcome.result = .ok (request.inEarnest.worked.report content revision).tried ∧
      after = tree := by
  have accepted : Accepted tree request.toTry content revision := accepted.anyway true
  have unwritten : request.toTry.worked.writes revision = false := Bool.and_false _
  have ended := run_of_kept accepted unwritten tag
  rwa [ran, report_toTry] at ended

/-! ## Reading after the run in earnest -/

theorem Rewritten.refiled (rewritten : Rewritten tree after path old new) : tree.Refiled after := by
  obtain ⟨location, number, mode, fresh, -, found, -, entries, -, working, caller, -⟩ := rewritten
  refine ⟨caller, working, ?_, ?_⟩
  · intro place entry here file
    rw [entries]
    by_cases same : place = location
    · exact ⟨_, if_pos same, rfl⟩
    · exact ⟨entry, by rw [if_neg same, here], file⟩
  · intro place entry single
    rw [entries]
    by_cases same : place = location
    · subst same
      rw [if_pos rfl, found]
      constructor
      · intro here
        cases here
        cases single
      · intro here
        cases here
        cases single
    · rw [if_neg same]

/-- What was rewritten can be read as before. -/
theorem Rewritten.readFile (rewritten : Rewritten tree after path old new)
    (read : tree.readFile path = .ok old) : after.readFile path = .ok new := by
  have refiled := rewritten.refiled
  obtain ⟨location, number, mode, fresh, located, found, -, entries, -, -, caller, -⟩ := rewritten
  obtain ⟨place, _, _, located', readable, -⟩ := FileTree.readFile_eq_ok_iff.mp read
  cases located.symm.trans located'
  have here := entries location
  rw [if_pos rfl] at here
  refine FileTree.readFile_eq_ok_iff.mpr ⟨location, fresh, mode, refiled.locate located, ?_, here⟩
  rw [← readable]
  simp only [FileTree.allows, caller, found, here]
  rfl

/-- The end of a run in earnest: it has nothing to write, or it writes, or it cannot write. -/
theorem run_inEarnest (accepted : Accepted tree request content revision)
    (ran : run tag tree request.inEarnest = (outcome, after)) :
    (revision.content = content ∧ after = tree ∧
        outcome.result = .ok (request.inEarnest.worked.report content revision)) ∨
      revision.changed = true ∧
        ((tree.replaceFile tag request.path (Utf8.encode revision.content) = (.ok (), after) ∧
            outcome.result = .ok (request.inEarnest.worked.report content revision)) ∨
          ∃ error, (tree.replaceFile tag request.path (Utf8.encode revision.content)).1 =
              .error error ∧ outcome.result = .error (.file error)) := by
  have accepted' : Accepted tree request.inEarnest content revision := accepted.anyway false
  have writes := writes_inEarnest request revision
  by_cases changed : revision.changed = true
  · refine .inr ⟨changed, ?_⟩
    obtain ⟨⟨result, left⟩, replaced⟩ : ∃ end', tree.replaceFile tag request.path
        (Utf8.encode revision.content) = end' := ⟨_, rfl⟩
    obtain ⟨done, same⟩ := run_of_written accepted' (writes.trans changed) replaced
    rw [ran] at done same
    subst same
    rw [replaced]
    cases result with
    | ok _ => exact .inl ⟨rfl, done⟩
    | error error => exact .inr ⟨error, rfl, done⟩
  · obtain ⟨done, same⟩ := run_of_kept accepted' (writes.trans (by simpa using changed)) tag
    rw [ran] at done same
    refine .inl ⟨?_, same, done⟩
    by_contra other
    exact changed ((changed_iff accepted.revised).mpr other)

/-- The text that a path is read as after a run in earnest is the revision, and it is there to be
read if nothing had the name of the temporary file. -/
theorem readText_inEarnest (wellFormed : tree.WellFormed) (single : '/' ∉ tag)
    (accepted : Accepted tree request content revision)
    (replaced : tree.replaceFile tag request.path (Utf8.encode revision.content) =
      (.ok (), after)) :
    (∀ text, after.readText request.path = .ok text → text = revision.content) ∧
      (tree.SparesTemporary tag request.path →
        ∃ text, after.readText request.path = .ok text) := by
  obtain ⟨bytes, read, decoded⟩ := asText_eq_ok_iff.mp accepted.read
  constructor
  · intro text again
    obtain ⟨bytes', again, decoded'⟩ := asText_eq_ok_iff.mp again
    rw [readFile_of_replaceFile wellFormed single read replaced again, Utf8.decode?_encode]
      at decoded'
    cases decoded'
    rfl
  · intro spared
    have rewritten := rewritten_of_replaceFile wellFormed single spared accepted.read replaced
    rw [Utf8.encode_of_decode? decoded] at rewritten
    exact ⟨_, asText_eq_ok_iff.mpr ⟨_, rewritten.readFile read, Utf8.decode?_encode _⟩⟩

/-- **A run that only tries tells what the run in earnest does.** It leaves the tree as it was, so
the run in earnest does the same after it as without it. If it fails, the run in earnest fails for
the same reason. If the run in earnest succeeds, both report the same, except for whether they wrote
and whether they only tried, and the changed lines that both report are those between what can be
read at the path before and after the run in earnest. If only the run in earnest fails, the content
was to change, and the file could not be replaced. -/
theorem dry_run_foretells {tag : Text} {tree left after : FileTree} {request : Request}
    {dry real : Outcome} (wellFormed : tree.WellFormed) (single : '/' ∉ tag)
    (tried : run tag tree request.toTry = (dry, left))
    (ran : run tag tree request.inEarnest = (real, after)) :
    left = tree ∧ run tag left request.inEarnest = (real, after) ∧
    (∀ failure, dry.result = .error failure → real.result = .error failure) ∧
    (∀ report, real.result = .ok report →
      dry.result = .ok { report with written := false, dryRun := true } ∧
      report.dryRun = false ∧ report.written = report.changed ∧
      ∃ before, tree.readText request.path = .ok before ∧
        (∀ text, after.readText request.path = .ok text →
          report.diff = (Diff.changedLines before text).map Diff.LineChange.render) ∧
        (tree.SparesTemporary tag request.path →
          ∃ text, after.readText request.path = .ok text)) ∧
    ∀ report failure, dry.result = .ok report → real.result = .error failure →
      report.changed = true ∧ ∃ content revision error,
        Accepted tree request content revision ∧
        (tree.replaceFile tag request.path (Utf8.encode revision.content)).1 = .error error ∧
        failure = .file error := by
  rcases refused_or_accepted tree request with ⟨reason, refused⟩ | ⟨content, revision, accepted⟩
  · obtain ⟨dryFailed, rfl⟩ := run_toTry_of_refused refused tried
    have realFailed := run_inEarnest_of_refused refused ran
    refine ⟨rfl, ran, ?_, ?_, ?_⟩
    · intro failure failed
      rw [realFailed, ← dryFailed, failed]
    · intro report done
      cases realFailed.symm.trans done
    · intro report failure done
      cases dryFailed.symm.trans done
  · obtain ⟨dryDone, rfl⟩ := run_toTry accepted tried
    have ends := run_inEarnest accepted ran
    refine ⟨rfl, ran, ?_, ?_, ?_⟩
    · intro failure failed
      cases dryDone.symm.trans failed
    · intro report done
      rcases ends with ⟨same, rfl, done'⟩ | ⟨changed, ⟨replaced, done'⟩ | ⟨error, -, failed⟩⟩
      · cases done.symm.trans done'
        refine ⟨dryDone, rfl, Bool.and_true _, content, accepted.read, ?_, fun _ => ⟨_, accepted.read⟩⟩
        intro text again
        cases accepted.read.symm.trans again
        exact congrArg (fun new => (Diff.changedLines content new).map Diff.LineChange.render) same
      · cases done.symm.trans done'
        obtain ⟨only, some⟩ := readText_inEarnest wellFormed single accepted replaced
        refine ⟨dryDone, rfl, Bool.and_true _, content, accepted.read, ?_, some⟩
        intro text again
        rw [only text again]
        rfl
      · cases done.symm.trans failed
    · intro report failure done failed
      cases dryDone.symm.trans done
      rcases ends with ⟨-, -, done'⟩ | ⟨changed, ⟨-, done'⟩ | ⟨error, cannot, failed'⟩⟩
      · cases failed.symm.trans done'
      · cases failed.symm.trans done'
      · cases failed.symm.trans failed'
        exact ⟨changed, content, revision, error, accepted, cannot, rfl⟩

/-- Trying a request for the workflow behind a link, and carrying it out. -/
theorem dry_run_foretells_link :
    linkedTree.WellFormed ∧ '/' ∉ "7".toList ∧
      ∃ report, (run "7".toList linkedTree linkRequest.inEarnest).1.result = .ok report ∧
        report.changed = true ∧
        (run "7".toList linkedTree linkRequest.toTry).1.result =
          .ok { report with written := false, dryRun := true } ∧
        ∀ text, (run "7".toList linkedTree linkRequest.inEarnest).2.readText linkRequest.path =
            .ok text →
          report.diff =
            (Diff.changedLines "options:\n".toList text).map Diff.LineChange.render := by
  have wellFormed : linkedTree.WellFormed := ⟨by decide, by decide⟩
  have single : '/' ∉ "7".toList := by decide
  have known : linkedTree.readText linkRequest.path = .ok "options:\n".toList := by
    cbv
  obtain ⟨-, -, -, succeeded, -⟩ := dry_run_foretells wellFormed single
    (Prod.eta (run "7".toList linkedTree linkRequest.toTry)).symm
    (Prod.eta (run "7".toList linkedTree linkRequest.inEarnest)).symm
  obtain ⟨report, finished, changed⟩ : ∃ report,
      (run "7".toList linkedTree linkRequest.inEarnest).1.result = .ok report ∧
        report.changed = true :=
    ⟨_, by cbv, rfl⟩
  obtain ⟨tried, -, -, before, read, only, -⟩ := succeeded report finished
  cases known.symm.trans read
  exact ⟨wellFormed, single, report, finished, changed, tried, only⟩

end ReleasePicker.Update
