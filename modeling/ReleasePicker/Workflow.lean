import ReleasePicker.Files.Listing
import ReleasePicker.Files.Replacement
import ReleasePicker.Files.Setup
import ReleasePicker.Path

/-!
The deploy workflow within a checkout: where it stands, what it looks like, and how to check what a
run did to it.
-/
namespace ReleasePicker.Workflow

open Files

/-- The path of the deploy workflow from the root of a checkout. -/
def location : Text :=
  ".github/workflows/deploy-server.yml".toList

/-- The lines of a deploy workflow with a release picker. -/
def sampleLines : List String :=
  ["name: Deploy Server",
   "",
   "on:",
   "  workflow_dispatch:",
   "    inputs:",
   "      release:",
   "        description: 'Release to deploy'",
   "        required: true",
   "        type: choice",
   "        options:",
   "          - 'latest'",
   "          - 'v0.9.0'",
   "        default: 'latest'",
   "",
   "jobs:",
   "  deploy:",
   "    runs-on: ubuntu-latest",
   "    steps:",
   "      - uses: actions/checkout@v4",
   "      - run: ./scripts/deploy.sh \"$\x7b\x7b inputs.release \x7d\x7d\""]

/-- A deploy workflow with a release picker. -/
def sample : Text :=
  sampleLines.flatMap fun line => line.toList ++ ['\n']

/-- The path of the deploy workflow in the checkout with this root. -/
def pathIn (root : Bytes) : Bytes :=
  childPath root (Utf8.encode location)

/-- Write the deploy workflow of a checkout, making the directories for it. -/
def write (tree : FileTree) (root : Bytes) (content : Text) : Except Fault FileTree := do
  (← tree.createDirectories (parentPath (pathIn root))).writeFile (pathIn root)
    (Utf8.encode content)

/-- What a check of a checkout finds wrong. -/
inductive Finding
  /-- The workflow cannot be read. -/
  | unreadable (path : Bytes)
  /-- There is a workflow where none should be. -/
  | unexpected (path : Bytes)
  /-- The workflow lacks a text. -/
  | lacks (expected actual : Text)
  deriving DecidableEq, Repr

/-- The finding as a user reads it. -/
def Finding.message : Finding → Text
  | unreadable path => "Could not read workflow: ".toList ++ Utf8.decodeLossy path
  | unexpected path => "Expected no workflow at ".toList ++ Utf8.decodeLossy path
  | lacks expected actual =>
    "Workflow does not contain expected content.\nExpected: ".toList ++ expected ++
      "\nActual: ".toList ++ actual

/-- The text of the deploy workflow. -/
def read (tree : FileTree) (root : Bytes) : Except Finding Text :=
  match tree.readText (pathIn root) with
  | .ok text => .ok text
  | .error _ => .error (.unreadable (pathIn root))

/-- Check that there is no deploy workflow. -/
def checkMissing (tree : FileTree) (root : Bytes) : Except Finding Unit :=
  if tree.isPresent (pathIn root) then .error (.unexpected (pathIn root)) else .ok ()

/-- Whether a text occurs in another one. -/
def occursIn (part : Text) : Text → Bool
  | [] => part.isEmpty
  | c :: rest => part.isPrefixOf (c :: rest) || occursIn part rest

/-- Check that the deploy workflow holds a text. -/
def checkContains (tree : FileTree) (root : Bytes) (expected : Text) : Except Finding Unit := do
  let actual ← read tree root
  if occursIn expected actual then return () else throw (.lacks expected actual)

/-- The names of all files of a checkout, as a user reads them and in order. -/
def fileNames (tree : FileTree) (root : Bytes) : List Text :=
  ((tree.fileNames root []).map fun name => slashed (Utf8.decodeLossy name)).mergeSort
    Text.comesBefore

end ReleasePicker.Workflow
