import ReleasePicker.Main
import ReleasePicker.Options.Revision
import ReleasePicker.Options.Grammar
import ReleasePicker.Proofs.Lines
import ReleasePicker.Proofs.Options.LineForms
import ReleasePicker.Proofs.Options.Layouts
import ReleasePicker.Proofs.Options.Revisions
import ReleasePicker.Proofs.Options.Sessions
import ReleasePicker.Options.Pattern
import ReleasePicker.Proofs.Options.PatternReading
import ReleasePicker.Proofs.Options.BlockReading
import ReleasePicker.Files.WellFormed
import ReleasePicker.Proofs.Files.Paths
import ReleasePicker.Proofs.Files.Trees
import ReleasePicker.Proofs.Files.Replacements
import ReleasePicker.Proofs.Options.Refusals
import ReleasePicker.Proofs.Files.Routes
import ReleasePicker.Proofs.Files.Slots
import ReleasePicker.Proofs.Files.Targets
import ReleasePicker.Proofs.Files.Readings
import ReleasePicker.Proofs.Files.AllOrNothing
import ReleasePicker.Proofs.Update.Effects
import ReleasePicker.Files.Course
import ReleasePicker.Proofs.Files.Courses
import ReleasePicker.Update.Overlap
import ReleasePicker.Proofs.Update.Overlaps
import ReleasePicker.Proofs.Files.ReadBack
import ReleasePicker.Proofs.Update.DryRuns
import ReleasePicker.Command.Spelling
import ReleasePicker.Proofs.Command.Readings
import ReleasePicker.Proofs.Command.Spellings
import ReleasePicker.Proofs.Command.Gifts
import ReleasePicker.Proofs.Command.Environments
import ReleasePicker.Proofs.Command.Calls
import ReleasePicker.Diff.Alignment
import ReleasePicker.Proofs.Diff.SplitLines
import ReleasePicker.Proofs.Diff.Rearrangements
import ReleasePicker.Proofs.Diff.Tidying
import ReleasePicker.Proofs.Diff.Comparisons
import ReleasePicker.Proofs.Options.Previews
import ReleasePicker.Proofs.Diff.EditScripts
import ReleasePicker.Proofs.Options.OwnEntries
import ReleasePicker.Proofs.Releases
import ReleasePicker.Proofs.SlashPaths
import ReleasePicker.Proofs.PathJoins
import ReleasePicker.Proofs.Options.Quoting
import ReleasePicker.Text.JsonGrammar
import ReleasePicker.Text.JsonReading
import ReleasePicker.Proofs.Json.Lexemes
import ReleasePicker.Proofs.Json.Documents
import ReleasePicker.Proofs.Json.Renderings
import ReleasePicker.Proofs.Update.Reports
