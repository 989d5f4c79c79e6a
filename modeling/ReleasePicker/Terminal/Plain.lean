import ReleasePicker.Text.Utf8

/-!
Text without the escape sequences in it, for an output that is no terminal. A scan goes through the
text and keeps the place in which the next character stands. Sequences are dropped, and so are
control characters other than white ones. A white character is kept even within a short sequence or
a control sequence, and there are two readings of what is behind it: it ends the sequence, or it
only holds it up until the next control character.
-/
namespace ReleasePicker.Terminal

/-- What the next character of a text may belong to. -/
inductive Place
  /-- Plain text. -/
  | text
  /-- A sequence of which the escape character alone has been read. -/
  | escape
  /-- A short sequence before its final character. -/
  | short
  /-- A control sequence before its final character. -/
  | control
  /-- A command to the system, which lasts until the bell. -/
  | command
  /-- A message to a device, before its parameters. -/
  | device
  /-- A message to a device, among its parameters. -/
  | deviceParameters
  /-- A message to a device, behind its parameters. -/
  | deviceSelector
  /-- A string that only its terminator ends. -/
  | string
  deriving DecidableEq, Repr

/-- The character that starts sequences. -/
def escapeCharacter : Char := '\x1b'

/-- Whether a character breaks every sequence off. -/
def isCancel (c : Char) : Bool :=
  c == '\x18' || c == '\x1a'

/-- Whether a control character is white. -/
def isWhiteControl (c : Char) : Bool :=
  c == '\t' || c == '\n' || c == '\x0c' || c == '\x0d'

/-- Whether a character is one of those between two code points. -/
def isBetween (first last : Nat) (c : Char) : Bool :=
  first ≤ c.toNat && c.toNat ≤ last

/-- Whether a character is more than a control character. -/
def isGraphic (c : Char) : Bool :=
  0x20 ≤ c.toNat && c != '\x7f'

/-- Whether a character ends a string. The terminator is one byte, which may be part of the UTF-8
form of a character. -/
def endsString (c : Char) : Bool :=
  (Utf8.encodeChar c).contains 0x9C

namespace Place

/-- The place behind the first character after the escape character. -/
def afterEscape (c : Char) : Place :=
  if c = '[' then control
  else if c = ']' then command
  else if c = 'P' then device
  else if c = 'X' ∨ c = '^' ∨ c = '_' then string
  else if isBetween 0x20 0x2F c then short
  else if isBetween 0x30 0x7E c then text
  else escape

/-- The place behind a character. -/
def next (place : Place) (c : Char) : Place :=
  if c = escapeCharacter then escape
  else if isCancel c then text
  else match place with
    | text => text
    | escape => afterEscape c
    | short => if isBetween 0x30 0x7E c then text else short
    | control => if isBetween 0x40 0x7E c then text else control
    | command => if c = '\x07' then text else command
    | device =>
      if isBetween 0x40 0x7E c then string
      else if isBetween 0x30 0x3F c then deviceParameters
      else if isBetween 0x20 0x2F c then deviceSelector
      else device
    | deviceParameters =>
      if isBetween 0x3C 0x7E c then string
      else if isBetween 0x20 0x2F c then deviceSelector
      else deviceParameters
    | deviceSelector => if isBetween 0x30 0x7E c then string else deviceSelector
    | string => if endsString c then text else string

/-- Whether a character is kept in a place. -/
def keeps (place : Place) (c : Char) : Bool :=
  match place with
  | text => isGraphic c || isWhiteControl c
  | escape | short | control => isWhiteControl c
  | _ => false

end Place

/-- The text from a place on, without sequences and control characters. A white character ends the
sequence that it stands in. -/
def plainFrom (place : Place) : Text → Text
  | [] => []
  | c :: rest =>
    if place.keeps c then c :: plainFrom .text rest else plainFrom (place.next c) rest

/-- A text without sequences and control characters. -/
def plain (text : Text) : Text :=
  plainFrom .text text

/-- The text from a place on, without sequences and control characters. A white character holds up
the sequence that it stands in: what follows is kept up to the next control character, where the
sequence goes on. A character outside ASCII in between ends it. -/
def heldUpFrom (place : Place) (isHeldUp : Bool) : Text → Text
  | [] => []
  | c :: rest =>
    if (if isHeldUp then .text else place).keeps c then
      c :: heldUpFrom (if c.toNat < 0x80 then place else .text) true rest
    else heldUpFrom (place.next c) false rest

/-- What an output that is no terminal receives of a text. -/
def piped (text : Text) : Text :=
  heldUpFrom .text false text

end ReleasePicker.Terminal
