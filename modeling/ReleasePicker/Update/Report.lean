import ReleasePicker.Files.Fault
import ReleasePicker.Options.Revision
import ReleasePicker.Terminal.Style
import ReleasePicker.Text.Json

/-!
How a run ends. What it did is told in a sentence, with a preview of the changed lines for a run
that only tries, or as a JSON object for scripts; why it fails, in the words that the user reads.
-/
namespace ReleasePicker.Update

open Terminal (paint)

/-- What a run did. -/
structure Report where
  /-- The path of the workflow. -/
  path : Text
  /-- The releases that are offered now, the default entry not among them. -/
  releases : List Text
  /-- How many releases that is. -/
  releasesWritten : Nat
  /-- The entries that were offered before. -/
  previous : List Text
  /-- Whether the new content differs from the old one. -/
  changed : Bool
  /-- Whether the file was written. -/
  written : Bool
  /-- Whether the run was only to try. -/
  dryRun : Bool
  /-- The changed lines, each with its sign. -/
  diff : List Text
  deriving DecidableEq, Repr

namespace Report

/-- The fields of the report under the names that scripts know. -/
def fields (report : Report) : List (Text × Json.Value) :=
  [("path".toList, .text report.path),
   ("releases".toList, .texts report.releases),
   ("releases_written".toList, .number report.releasesWritten),
   ("previous".toList, .texts report.previous),
   ("changed".toList, .flag report.changed),
   ("written".toList, .flag report.written),
   ("dry_run".toList, .flag report.dryRun),
   ("diff".toList, .texts report.diff)]

/-- The report for scripts. -/
def renderJson (report : Report) : Text :=
  Json.renderObject report.fields ++ ['\n']

/-- A line of the preview: removed lines in red and all others in green. -/
def previewLine (styled : Bool) (line : Text) : Text :=
  paint styled (if line.head? = some '-' then .red else .green) line ++ ['\n']

/-- The end of every sentence: which file is meant and how many releases it offers. -/
def summary (report : Report) : Text :=
  report.path ++ " with ".toList ++ Text.ofNat report.releasesWritten ++ " releases".toList

/-- The report for people. -/
def renderProse (report : Report) (styled : Bool) : Text :=
  if report.dryRun then
    report.diff.flatMap (previewLine styled) ++
      "[dry-run] Would update ".toList ++ report.summary ++ ['\n']
  else
    paint styled .greenBold "OK".toList ++ " Updated ".toList ++ report.summary ++
      (if report.changed then [] else " (no changes)".toList) ++ ['\n']

/-- The report as it is asked for. -/
def render (report : Report) (json styled : Bool) : Text :=
  if json then report.renderJson else report.renderProse styled

end Report

/-! ## Failures -/

/-- Why a run fails. -/
inductive Failure
  /-- No releases were given. -/
  | usage
  /-- The workflow could not be read or written. -/
  | file (error : Files.FileError)
  /-- The workflow at the path could not be revised. -/
  | revision (path : Bytes) (error : Options.RevisionError)
  /-- What the caller asked for makes no sense. -/
  | user (message : Text)
  deriving DecidableEq, Repr

namespace Failure

/-- The failure as a user reads it. -/
def message : Failure → Text
  | usage => "missing RELEASES argument".toList
  | file error => error.message
  | revision path error => Utf8.decodeLossy path ++ ": ".toList ++ error.message
  | user message => message

/-- Whether the message is part of what the tool answers rather than a diagnostic: how to use it,
and that there is no workflow. -/
def isAnswer : Failure → Bool
  | usage => true
  | file error => error.isNotFound
  | _ => false

/-- The default entry is blank. -/
def blankDefault : Failure :=
  user "default entry must not be empty".toList

end Failure

end ReleasePicker.Update
