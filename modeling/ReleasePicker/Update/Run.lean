import ReleasePicker.Diff.Changes
import ReleasePicker.Files.Replacement
import ReleasePicker.Path
import ReleasePicker.Releases
import ReleasePicker.Update.Event
import ReleasePicker.Update.Report

/-!
One update of a workflow: read it, replace its entries, and write it back unless nothing changed or
the run is only to try. What needs no file stands in `Request.plan` and `Plan.revise`; a run is
these two with one read before and one write after the second.
-/
namespace ReleasePicker.Update

open Files Options

/-- What a caller asks for. -/
structure Request where
  /-- The directory that the workflow is named from. -/
  root : Bytes
  /-- The workflow. -/
  file : Bytes
  /-- The releases, one a line. -/
  releases : Text
  /-- The entry to offer first. -/
  defaultEntry : Text
  /-- Whether the run is only to try. -/
  dryRun : Bool
  deriving DecidableEq, Repr

/-- A request that makes sense, worked out. -/
structure Plan where
  /-- The path of the workflow. -/
  path : SlashPath
  /-- The releases to offer. -/
  releases : ReleaseList
  /-- All entries to write. -/
  entries : List Text
  /-- Whether the run is only to try. -/
  dryRun : Bool
  deriving DecidableEq, Repr

/-- Work a request out. The default entry is trimmed and must not be blank. -/
def Request.plan (request : Request) : Except Failure Plan :=
  let defaultEntry := Text.trim request.defaultEntry
  if defaultEntry = [] then .error .blankDefault
  else
    let releases := ReleaseList.ofText request.releases
    .ok ⟨SlashPath.resolve request.root request.file, releases, releases.entries defaultEntry,
      request.dryRun⟩

/-- What a run notes before it reads. -/
def Plan.started (plan : Plan) : List Event :=
  [.updating plan.path.text plan.releases.size]

/-- What a run notes about the content it has read. -/
def Plan.noticed (plan : Plan) (content : Text) : List Event :=
  .read plan.path.text (Text.byteLength content) ::
    ((findBlock? content).map fun block => Event.found block.line block.entries.length).toList

/-- The revision of a content. -/
def Plan.revise (plan : Plan) (content : Text) : Except Failure Revision :=
  (replaceEntries content plan.entries).mapError (.revision plan.path.bytes)

/-- What a run notes about a revision. -/
def revisionNotes (revision : Revision) : List Event :=
  [.revised revision.previous.line revision.previous.entries.length revision.entriesWritten]

/-- Whether a revision is to be written. -/
def Plan.writes (plan : Plan) (revision : Revision) : Bool :=
  revision.changed && !plan.dryRun

/-- The report on a revision of a content. -/
def Plan.report (plan : Plan) (content : Text) (revision : Revision) : Report where
  path := plan.path.text
  releases := plan.releases.releases
  releasesWritten := plan.releases.size
  previous := revision.previous.entries
  changed := revision.changed
  written := plan.writes revision
  dryRun := plan.dryRun
  diff := (Diff.changedLines content revision.content).map Diff.LineChange.render

/-- How a run may use files: it reads one, and it may replace one. -/
structure Access (m : Type → Type) where
  /-- Read the text of the file at a path. -/
  read : Bytes → m (Except FileError Text)
  /-- Replace the content of the file at a path as a whole. -/
  replace : Bytes → Bytes → m (Except FileError Unit)

/-- How a run ended. -/
structure Outcome where
  /-- What it noted on its way. -/
  events : List Event
  /-- The report, or why it failed. -/
  result : Except Failure Report

/-- Carry a request out with the given access to files. -/
def runWith [Monad m] (files : Access m) (request : Request) : m Outcome := do
  match request.plan with
  | .error failure => return ⟨[], .error failure⟩
  | .ok plan =>
    match ← files.read plan.path.bytes with
    | .error error => return ⟨plan.started, .error (.file error)⟩
    | .ok content =>
      let noticed := plan.started ++ plan.noticed content
      match plan.revise content with
      | .error failure => return ⟨noticed, .error failure⟩
      | .ok revision =>
        let noted := noticed ++ revisionNotes revision
        if plan.writes revision then
          let bytes := Utf8.encode revision.content
          match ← files.replace plan.path.bytes bytes with
          | .error error => return ⟨noted, .error (.file error)⟩
          | .ok () =>
            return ⟨noted ++ [.wrote plan.path.text bytes.length],
              .ok (plan.report content revision)⟩
        else
          return ⟨noted ++ [.skipped revision.changed], .ok (plan.report content revision)⟩

/-- Access to the files of a system. The tag keeps apart the temporary files of processes. -/
def accessTo [Monad m] (system : FileSystem m) (tag : Text) : Access m where
  read := system.readText
  replace := system.replaceFile tag

/-- Access to the files of a tree. -/
def treeAccess (tag : Text) : Access (StateM FileTree) :=
  accessTo treeSystem tag

theorem treeAccess_eq (tag : Text) :
    treeAccess tag =
      ⟨fun path tree => (tree.readText path, tree),
        fun path content tree => tree.replaceFile tag path content⟩ :=
  rfl

/-- Carry a request out on a file tree. -/
def run (tag : Text) (tree : FileTree) (request : Request) : Outcome × FileTree :=
  runWith (treeAccess tag) request tree

/-- A run on a tree case by case: where it stops and which tree it leaves. -/
theorem run_eq (tag : Text) (tree : FileTree) (request : Request) :
    run tag tree request =
      match request.plan with
      | .error failure => (⟨[], .error failure⟩, tree)
      | .ok plan =>
        match tree.readText plan.path.bytes with
        | .error error => (⟨plan.started, .error (.file error)⟩, tree)
        | .ok content =>
          match plan.revise content with
          | .error failure => (⟨plan.started ++ plan.noticed content, .error failure⟩, tree)
          | .ok revision =>
            let noted := plan.started ++ plan.noticed content ++ revisionNotes revision
            if plan.writes revision then
              let bytes := Utf8.encode revision.content
              match tree.replaceFile tag plan.path.bytes bytes with
              | (.error error, after) => (⟨noted, .error (.file error)⟩, after)
              | (.ok (), after) =>
                (⟨noted ++ [.wrote plan.path.text bytes.length],
                  .ok (plan.report content revision)⟩, after)
            else
              (⟨noted ++ [.skipped revision.changed], .ok (plan.report content revision)⟩,
                tree) := by
  unfold run runWith
  cases request.plan with
  | error failure => rfl
  | ok plan =>
    simp only [treeAccess_eq, bind, StateT.bind, pure]
    cases tree.readText plan.path.bytes with
    | error error => rfl
    | ok content =>
      dsimp only
      cases plan.revise content with
      | error failure => rfl
      | ok revision =>
        dsimp only
        split
        · cases replaced : tree.replaceFile tag plan.path.bytes (Utf8.encode revision.content) with
          | mk result after =>
            simp only [StateT.bind, replaced]
            cases result <;> rfl
        · rfl

end ReleasePicker.Update
