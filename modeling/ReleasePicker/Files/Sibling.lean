import ReleasePicker.Files.Lookup

/-!
The name a path ends in, and the path of another name beside it. Both go by the text of the path
alone: steps into the same directory count for nothing, and a path that ends in a step up has no
name, so that another name goes below it.
-/
namespace ReleasePicker.Files

/-- What a path starts with before its first name. -/
inductive Anchor
  /-- The root of the file system. -/
  | root
  /-- A dot, for the working directory. -/
  | here
  /-- Nothing. -/
  | none
  deriving DecidableEq, Repr

/-- A path cut into its anchor and the parts between the slashes behind that. -/
def anchored (path : Bytes) : Anchor × List Name :=
  match parts slash path with
  | [] => (.none, [])
  | first :: rest =>
    if first = [] ∧ rest ≠ [] then (.root, rest)
    else if first = dot then (.here, rest)
    else (.none, first :: rest)

/-- The parts without those at the end that lead nowhere. -/
def dropIdle (names : List Name) : List Name :=
  (names.reverse.dropWhile fun name => name.isEmpty || name == dot).reverse

/-- The name that a path ends in, if it ends in one. -/
def fileName? (path : Bytes) : Option Name :=
  (dropIdle (anchored path).2).getLast?.filter (· ≠ dotDot)

/-- Parts joined by slashes. -/
def joinNames : List Name → Bytes
  | [] => []
  | [name] => name
  | name :: rest => name ++ slash :: joinNames rest

/-- The path without the name that it ends in. -/
def parentPath (path : Bytes) : Bytes :=
  let (anchor, names) := anchored path
  let above := dropIdle (dropIdle names).dropLast
  match anchor with
  | .root => slash :: joinNames above
  | .here => if above = [] then dot else dot ++ slash :: joinNames above
  | .none => joinNames above

/-- A path with a name below it. -/
def childPath (path : Bytes) (name : Name) : Bytes :=
  if path = [] ∨ endsInSlash path then path ++ name else path ++ slash :: name

/-- The path of another name in the place of the one that a path ends in, or below the path if it
ends in none. -/
def siblingPath (path : Bytes) (name : Name) : Bytes :=
  childPath (if (fileName? path).isSome then parentPath path else path) name

end ReleasePicker.Files
