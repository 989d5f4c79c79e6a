import ReleasePicker.Files.Replacement

/-!
A replacement as it happens. Between any two steps somebody else may look at the tree, the process
may be stopped, and the next step may fail; and content reaches the temporary file in as many parts
as the system likes to take.
-/
namespace ReleasePicker.Files

/-- How far a replacement has come. -/
inductive Stage
  /-- These steps are still to be taken. -/
  | ahead (steps : List Step)
  /-- A step has failed, and the temporary file is to be taken away. -/
  | failing
  /-- Nothing more is going to happen. -/
  | ended
  deriving DecidableEq, Repr

/-- A moment of a replacement: the tree as everybody sees it, the steps taken, and what is next. -/
structure Course where
  tree : FileTree
  taken : List Step
  stage : Stage
  deriving DecidableEq, Repr

/-- Whether the step gives the temporary file the name of the target. -/
def Step.takesOver : Step → Bool
  | takeOver _ _ => true
  | _ => false

namespace Course

/-- Whether the target has been given its new file. -/
def hasTakenOver (course : Course) : Bool :=
  course.taken.any Step.takesOver

/-- What can happen next. -/
inductive Next (replacement : Replacement) : Course → Course → Prop where
  /-- The next step is taken. -/
  | take (performed : step.perform now = .ok after) :
      Next replacement ⟨now, earlier, .ahead (step :: rest)⟩ ⟨after, earlier ++ [step], .ahead rest⟩
  /-- Only some of the content is written. -/
  | write (performed : (Step.write temporary part).perform now = .ok after) :
      Next replacement ⟨now, earlier, .ahead (.write temporary (part ++ more) :: rest)⟩
        ⟨after, earlier ++ [.write temporary part], .ahead (.write temporary more :: rest)⟩
  /-- The next step fails, for whatever reason. -/
  | fail : Next replacement ⟨now, earlier, .ahead (step :: rest)⟩ ⟨now, earlier, .failing⟩
  /-- The temporary file is taken away after a failure. -/
  | clear (removed : now.unlink replacement.temporary = .ok after) :
      Next replacement ⟨now, earlier, .failing⟩ ⟨after, earlier, .ended⟩
  /-- The temporary file is not there or cannot be taken away. -/
  | leave : Next replacement ⟨now, earlier, .failing⟩ ⟨now, earlier, .ended⟩

/-- The moments that a replacement can come to from a tree. -/
inductive Reached (replacement : Replacement) (tree : FileTree) : Course → Prop where
  | start : Reached replacement tree ⟨tree, [], .ahead replacement.steps⟩
  | next (reached : Reached replacement tree before) (next : Next replacement before after) :
      Reached replacement tree after

end Course

end ReleasePicker.Files
