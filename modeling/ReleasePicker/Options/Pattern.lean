import ReleasePicker.Options.Layout

/-!
Finding an options block by two patterns: one for the key line with the run of entry lines below it,
and one that takes the value out of each line of that run. A pattern can match in several ways. They
are tried in a fixed order, as many repetitions as possible first, and the first way at the first
place of the text counts.
-/
namespace ReleasePicker.Options

open Text (breaksLine isIndent)

/-- The parts of a match that are looked at afterwards: the key line with its indentation and its
terminator, the run of entry lines, and the indentation and the quoted value of an entry. -/
inductive Group
  | key
  | keyIndent
  | newline
  | entries
  | indent
  | value
  deriving DecidableEq, Repr

/-- What a text is matched against. -/
inductive Pattern
  | nothing
  /-- One character of a class. -/
  | one (accepts : Char → Bool)
  | lineStart
  | textStart
  | textEnd
  | both (first second : Pattern)
  /-- One pattern or, failing that, another. -/
  | either (first second : Pattern)
  /-- A pattern any number of times, as often as possible. -/
  | many (body : Pattern)
  /-- A pattern whose match is looked at afterwards. -/
  | group (name : Group) (body : Pattern)

/-- A place in a text during a match. -/
structure Place where
  /-- What stands in front of the place. -/
  before : Text
  /-- What stands behind it. -/
  rest : Text
  /-- The groups that have been matched, each with what stands in front of it. -/
  groups : List (Group × Text × Text)
  deriving DecidableEq, Repr

/-- What the last match of a group is, behind what stands in front of it. -/
def Place.group? (place : Place) (name : Group) : Option (Text × Text) :=
  place.groups.lookup name

/-- A step any number of times up to a bound, as often as possible first. Only steps that come
forward count. -/
def repeated (step : Place → List Place) : Nat → Place → List Place
  | 0, place => [place]
  | bound + 1, place =>
    ((step place).filter fun next => next.rest.length < place.rest.length).flatMap
      (repeated step bound) ++ [place]

namespace Pattern

/-- The places where a match that starts at a place can end, in the order in which they are
tried. -/
def ways : Pattern → Place → List Place
  | nothing, place => [place]
  | one accepts, place =>
    match place.rest with
    | [] => []
    | c :: rest => if accepts c then [⟨place.before ++ [c], rest, place.groups⟩] else []
  | lineStart, place =>
    if place.before = [] ∨ place.before.getLast? = some '\n' then [place] else []
  | textStart, place => if place.before = [] then [place] else []
  | textEnd, place => if place.rest = [] then [place] else []
  | both first second, place => (ways first place).flatMap (ways second)
  | either first second, place => ways first place ++ ways second place
  | many body, place => repeated (ways body) place.rest.length place
  | group name body, place =>
    (ways body place).map fun stop =>
      { stop with
        groups := (name, place.before, stop.before.drop place.before.length) :: stop.groups }

/-- The first way of a match at the first place where there is one, given what stands in front of
the text. -/
def search (pattern : Pattern) (before : Text) : Text → Option Place
  | [] => (pattern.ways ⟨before, [], []⟩).head?
  | c :: rest =>
    match (pattern.ways ⟨before, c :: rest, []⟩).head? with
    | some stop => some stop
    | none => search pattern (before ++ [c]) rest

/-- The match of a pattern in a text. -/
def find? (pattern : Pattern) (text : Text) : Option Place :=
  pattern.search [] text

/-- The characters of a text, one after another. -/
def word : Text → Pattern
  | [] => nothing
  | c :: rest => both (one (· == c)) (word rest)

def blanks : Pattern :=
  many (one isIndent)

def indentation : Pattern :=
  both (one isIndent) blanks

/-- A line feed, a carriage return in front of it if there is one. -/
def lineBreak : Pattern :=
  both (either (one (· == '\r')) nothing) (one (· == '\n'))

/-- A value as it is written between its quotes. -/
def quotedValue : Pattern :=
  many (either (one fun c => c != '\'' && !breaksLine c) (word ['\'', '\'']))

def keyLine : Pattern :=
  both (group .keyIndent blanks) (both (word keyword) (both blanks (group .newline lineBreak)))

/-- The end of an entry line from the closing quote on. -/
def closing : Pattern :=
  both (one (· == '\'')) (both blanks (either lineBreak textEnd))

/-- An entry line. -/
def entryLine : Pattern :=
  both indentation (both (word ['-', ' ', '\'']) (both quotedValue closing))

/-- A key line and all entry lines right below it. -/
def block : Pattern :=
  both lineStart (both (group .key keyLine) (group .entries (many entryLine)))

/-- An entry at the start of a line, whatever follows it. -/
def entry : Pattern :=
  both textStart (both (group .indent indentation) (both (word ['-', ' ', '\''])
    (both (group .value quotedValue) (one (· == '\'')))))

end Pattern

/-- The first options block of a text, as the two patterns find it. -/
def findBlockByPatterns? (content : Text) : Option Block := do
  let found ← Pattern.block.find? content
  let (above, _) ← found.group? .key
  let (front, run) ← found.group? .entries
  let keyIndent := ((found.group? .keyIndent).map Prod.snd).getD []
  let entries := (Text.bareLines run).filterMap Pattern.entry.find?
  let indents := (entries.filterMap (Place.group? · .indent)).map Prod.snd
  let values := (entries.filterMap (Place.group? · .value)).map Prod.snd
  return {
    entryIndent := indents.head?.getD (keyIndent ++ [' ', ' '])
    newline := if (found.group? .newline).map Prod.snd = some ['\r', '\n'] then .crlf else .lf
    entries := values.map halve
    span := ⟨Text.byteLength front, Text.byteLength front + Text.byteLength run⟩
    line := (Text.bareLines above).length + 1 }

end ReleasePicker.Options
