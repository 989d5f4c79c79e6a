import ReleasePicker.Command.Run

/-!
The tool on the files of this machine. Everything it decides is decided elsewhere; here each
operation it asks for is handed to the system and what it prints is printed.

The runtime tells neither the permission bits of a file nor when it has reached the disk. So a file
that this process cannot open for writing counts as one that nobody may write, any other keeps the
permission bits of a new one when it is replaced, and content is handed to the system but not waited
for.
-/
namespace ReleasePicker

open Files

/-- A path as the runtime takes it. -/
def pathString (path : Bytes) : String :=
  String.ofList (Utf8.decodeLossy path)

/-- The error number behind a code. Some calls of the runtime give the number itself and others its
negative, which wraps around. -/
def errorNumber (code : UInt32) : Nat :=
  min code.toNat (0 - code).toNat

/-- What the system found wrong. -/
def faultOf : IO.Error → Fault
  | .alreadyExists _ code _ | .otherError code _ | .resourceBusy code _
  | .resourceVanished code _ | .unsupportedOperation code _ | .hardwareFault code _
  | .unsatisfiedConstraints code _ | .illegalOperation code _ | .protocolError code _
  | .timeExpired code _ | .interrupted _ code _ | .noFileOrDirectory _ code _
  | .invalidArgument _ code _ | .permissionDenied _ code _ | .resourceExhausted _ code _
  | .inappropriateType _ code _ | .noSuchThing _ code _ => .system (errorNumber code)
  | .unexpectedEof => .described "unexpected end of file".toList
  | .userError reason => .described reason.toList

/-- Run an action and catch what the system finds wrong. -/
def attempt (action : IO α) : IO (Except Fault α) := do
  match ← action.toBaseIO with
  | .ok value => return .ok value
  | .error error => return .error (faultOf error)

/-- The permission bits that this process can tell of a file. A file that it cannot open for writing
counts as one that nobody may write; of any other it can tell none. -/
def modeAtPath (path : Bytes) : IO (Except Fault Nat) := do
  match ← attempt (IO.FS.Handle.mk (pathString path) .readWrite) with
  | .error .denied => return .ok 0o444
  | .error fault => return .error fault
  | .ok _ => return .error (.described "permission bits cannot be told".toList)

/-- The files of this machine. -/
def machineSystem : FileSystem IO where
  resolve path := attempt do
    return Utf8.encode (← IO.FS.realPath (pathString path)).toString.toList
  readFile path := attempt do
    return (← IO.FS.readBinFile (pathString path)).toList
  modeOf := modeAtPath
  createFile path := attempt do
    let _ ← IO.FS.Handle.mk (pathString path) .write
  appendToFile path content := attempt do
    let handle ← IO.FS.Handle.mk (pathString path) .append
    handle.lock
    handle.write ⟨content.toArray⟩
    handle.flush
    handle.unlock
  sync _ := return .ok ()
  setMode path mode := attempt (IO.Prim.setAccessRights (pathString path) mode.toUInt32)
  rename source target := attempt (IO.FS.rename (pathString source) (pathString target))
  unlink path := attempt (IO.FS.removeFile (pathString path))

/-- What keeps the temporary files of this process apart from those of others. -/
def processTag : IO Text := do
  match ← attempt (IO.FS.readFile "/proc/self/stat") with
  | .ok status => return status.toList.takeWhile Char.isDigit
  | .error _ => return Text.ofNat (← IO.monoNanosNow)

/-- The variables that the tool looks at, as far as they are set. -/
def readEnvironment : IO Command.Environment := do
  let set ← Command.Environment.variableNames.filterMapM fun name => do
    return (← IO.getEnv name).map fun value => (name.toList, Utf8.encode value.toList)
  return ⟨set⟩

end ReleasePicker

open ReleasePicker in
/-- Call the tool. -/
def main (arguments : List String) : IO UInt32 := do
  let files := Update.accessTo machineSystem (← processTag)
  let printed ← Command.callWith files (← readEnvironment)
    (arguments.map fun argument => Utf8.encode argument.toList)
  IO.print (String.ofList printed.output)
  IO.eprint (String.ofList printed.diagnostics)
  return printed.exitCode.toUInt32
