import ReleasePicker.Terminal.Style

/-!
What a run notes on its way. Each event has a source, a message and named details, and is one line
of the log.
-/
namespace ReleasePicker.Update

open Terminal (paint)

/-- What a run can note. -/
inductive Event
  /-- The log is on. -/
  | logging
  /-- A run starts on a file with a number of releases. -/
  | updating (path : Text) (releases : Nat)
  /-- A file of that many bytes was read. -/
  | read (path : Text) (bytes : Nat)
  /-- A block was found. -/
  | found (line entries : Nat)
  /-- The entries of the block on that line were replaced. -/
  | revised (line previous written : Nat)
  /-- A file of that many bytes was written. -/
  | wrote (path : Text) (bytes : Nat)
  /-- The file was left alone. -/
  | skipped (changed : Bool)
  deriving DecidableEq, Repr

namespace Event

/-- The part of the tool that an event comes from. -/
def source : Event → String
  | logging => "update_deploy_options"
  | updating _ _ => "update_deploy_options::commands::update"
  | read _ _ => "deploy_fs::io"
  | found _ _ => "deploy_blocks::parser"
  | revised _ _ _ => "deploy_blocks::writer"
  | wrote _ _ => "deploy_fs::io"
  | skipped _ => "update_deploy_options::commands::update"

/-- What happened. -/
def message : Event → String
  | logging => "Verbose mode enabled"
  | updating _ _ => "Updating deploy options"
  | read _ _ => "Read file"
  | found _ _ => "Found options block"
  | revised _ _ _ => "Rewrote options block"
  | wrote _ _ => "Wrote file"
  | skipped _ => "Skipping write"

/-- The details in their order. -/
def details : Event → List (String × Text)
  | logging => []
  | updating path releases => [("path", path), ("releases", Text.ofNat releases)]
  | read path bytes => [("path", path), ("bytes", Text.ofNat bytes)]
  | found line entries => [("line", Text.ofNat line), ("entries", Text.ofNat entries)]
  | revised line previous written =>
    [("line", Text.ofNat line), ("previous", Text.ofNat previous), ("written", Text.ofNat written)]
  | wrote path bytes => [("path", path), ("bytes", Text.ofNat bytes)]
  | skipped changed => [("changed", (if changed then "true" else "false").toList)]

/-- The line of the log for an event. -/
def render (styled : Bool) (event : Event) : Text :=
  paint styled .blue "DEBUG".toList ++ [' '] ++ paint styled .dim event.source.toList ++
    paint styled .dim [':'] ++ [' '] ++ event.message.toList ++
    event.details.flatMap (fun (name, value) =>
      [' '] ++ paint styled .italic name.toList ++ paint styled .dim ['='] ++ value) ++ ['\n']

end Event

end ReleasePicker.Update
