import ReleasePicker.Files.SystemName
import ReleasePicker.Text.Utf8

/-!
Why a file cannot be read or replaced. A fault is what the system or the library finds wrong; a file
error adds the path that it concerns.
-/
namespace ReleasePicker.Files

/-- What stands in the way of an operation. -/
inductive Fault
  /-- The system refused, with this error number. -/
  | system (code : Nat)
  /-- The operation was refused without asking the system. -/
  | described (reason : Text)
  deriving DecidableEq, Repr

namespace Fault

/-- Nothing has the name, or a directory on the way to it is not there. -/
@[match_pattern] def missing : Fault := .system 2

/-- Something on the way is neither a directory nor a link to one. -/
@[match_pattern] def notDirectory : Fault := .system 20

/-- A directory stands where a file is needed. -/
@[match_pattern] def isDirectory : Fault := .system 21

/-- The permission bits do not allow it. -/
@[match_pattern] def denied : Fault := .system 13

/-- Nobody can do it with something of this kind. -/
@[match_pattern] def notPermitted : Fault := .system 1

/-- Something has the name already. -/
@[match_pattern] def present : Fault := .system 17

/-- The place cannot be given away, such as the root of the file system. -/
@[match_pattern] def busy : Fault := .system 16

/-- A name or a whole path is longer than the system takes. -/
@[match_pattern] def nameTooLong : Fault := .system 36

/-- The path leads through more links than the system follows. -/
@[match_pattern] def tooManyLinks : Fault := .system 40

/-- Names cannot hold the byte zero. -/
def zeroByte : Fault := .described "file name contained an unexpected NUL byte".toList

/-- The content was to be read as text. -/
def notText : Fault := .described "stream did not contain valid UTF-8".toList

/-- Nobody may write the file. -/
def readOnly : Fault := .described "permission denied".toList

/-- The fault as a user reads it. -/
def message : Fault → Text
  | system code => systemName code ++ " (os error ".toList ++ Text.ofNat code ++ ")".toList
  | described reason => reason

end Fault

/-- Why an operation on a file failed. -/
inductive FileError
  /-- The file to read does not exist. -/
  | notFound (path : Bytes)
  /-- Something else is wrong at the path. -/
  | io (path : Bytes) (fault : Fault)
  /-- The lock on the file's replacement could not be had. -/
  | lockFailed (path : Bytes)
  deriving DecidableEq, Repr

namespace FileError

/-- The error as a user reads it. -/
def message : FileError → Text
  | notFound path => Utf8.decodeLossy path ++ " not found".toList
  | io path fault =>
    "I/O error at ".toList ++ Utf8.decodeLossy path ++ ": ".toList ++ fault.message
  | lockFailed path => "Lock acquisition failed for ".toList ++ Utf8.decodeLossy path

/-- Whether the error says that the file does not exist. -/
def isNotFound : FileError → Bool
  | notFound _ => true
  | _ => false

end FileError

end ReleasePicker.Files
