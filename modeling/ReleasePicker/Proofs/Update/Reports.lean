import ReleasePicker.Update.Report
import ReleasePicker.Proofs.Json.Renderings

/-!
The report for scripts loses nothing. What is printed is one JSON text with a line feed behind it,
the grammar lets it say the eight fields of the report and nothing else, and every text, number and
flag of the report can be told from what it says.
-/
namespace ReleasePicker.Update

open Json (Document Gap Padded Spells read? read?_eq_some_iff)

namespace Report

/-- What scripts are to be told: the eight fields under their names. -/
def document (report : Report) : Document :=
  .object
    [("path".toList, .text report.path),
     ("releases".toList, .list (report.releases.map .text)),
     ("releases_written".toList, .number report.releasesWritten),
     ("previous".toList, .list (report.previous.map .text)),
     ("changed".toList, .flag report.changed),
     ("written".toList, .flag report.written),
     ("dry_run".toList, .flag report.dryRun),
     ("diff".toList, .list (report.diff.map .text))]

/-- The fields that are rendered say what scripts are to be told. -/
theorem spells_document (report : Report) :
    Spells (Json.renderObject report.fields) report.document :=
  Json.spells_renderObject report.fields

/-- The line feed at the end is a gap, which the grammar lets stand behind every text. -/
theorem padded_renderJson (report : Report) : Padded Spells report.renderJson report.document := by
  have behind : Gap ['\n'] := by simp [Gap, Json.isGap]
  have padded := Padded.intro Json.gap_nil report.spells_document behind
  rw [List.nil_append] at padded
  exact padded

theorem read?_renderJson (report : Report) : read? report.renderJson = some report.document :=
  read?_eq_some_iff.mpr report.padded_renderJson

theorem document_injective : Function.Injective document := by
  intro report other same
  have texts : Function.Injective (List.map Document.text) :=
    List.map_injective_iff.mpr fun _ _ => Document.text.inj
  cases report
  cases other
  simpa [document, texts.eq_iff] using same

/-- Different reports are never told in one text. -/
theorem renderJson_injective : Function.Injective renderJson := by
  intro report other same
  have read := report.read?_renderJson
  rw [same, other.read?_renderJson] at read
  exact (document_injective (Option.some.inj read)).symm

/-- **The JSON report loses nothing.** It is a JSON text and a line feed, it can be read as the
eight fields of the report and in no other way, and only the report itself is printed like that. -/
theorem render_json_lossless (report other : Report) (styled otherStyled : Bool) :
    (∃ body, Spells body report.document ∧ report.render true styled = body ++ ['\n']) ∧
      (∀ document, Padded Spells (report.render true styled) document ↔
        document = report.document) ∧
      read? (report.render true styled) = some report.document ∧
      (report.render true styled = other.render true otherStyled ↔ report = other) := by
  refine ⟨⟨_, report.spells_document, rfl⟩, ?_, report.read?_renderJson, ?_⟩
  · intro document
    rw [← read?_eq_some_iff]
    show read? report.renderJson = some document ↔ document = report.document
    rw [report.read?_renderJson, Option.some.injEq, eq_comm]
  · exact renderJson_injective.eq_iff

end Report

end ReleasePicker.Update
