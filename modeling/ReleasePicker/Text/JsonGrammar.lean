import ReleasePicker.Text.Basic

/-!
What a JSON text says, by the grammar of the standard and apart from any way to write or to read
one. The grammar is more generous than the reports of the tool need: gaps may stand wherever the
standard lets them, characters may be written by their codes, numbers may have fractions and powers,
and lists and objects may be nested. A code that is half of a surrogate pair stands for no character
and needs its other half beside it.
-/
namespace ReleasePicker.Json

/-- What a JSON text can say. The members of an object stay in their order. -/
inductive Document
  | null
  | flag (value : Bool)
  | number (value : Rat)
  | text (value : Text)
  | list (items : List Document)
  | object (members : List (Text × Document))

/-! ## Gaps -/

/-- Whether a character may stand between two marks. -/
def isGap (c : Char) : Bool :=
  c == ' ' || c == '\t' || c == '\n' || c == '\r'

/-- Nothing that means anything. -/
def Gap (text : Text) : Prop :=
  ∀ c ∈ text, isGap c = true

/-- Something with any gaps around it. -/
inductive Padded (Item : Text → α → Prop) : Text → α → Prop
  | intro (before : Gap front) (item : Item text value) (behind : Gap back) :
      Padded Item (front ++ text ++ back) value

/-! ## Strings -/

/-- The characters that a backslash gives a meaning to, and the meaning. -/
def escapes : List (Char × Char) :=
  [('"', '"'), ('\\', '\\'), ('/', '/'), ('b', '\x08'), ('f', '\x0c'), ('n', '\n'), ('r', '\r'),
   ('t', '\t')]

/-- What a digit of base sixteen is worth. -/
def hexValue? (c : Char) : Option Nat :=
  if '0' ≤ c ∧ c ≤ '9' then some (c.toNat - '0'.toNat)
  else if 'a' ≤ c ∧ c ≤ 'f' then some (c.toNat - 'a'.toNat + 10)
  else if 'A' ≤ c ∧ c ≤ 'F' then some (c.toNat - 'A'.toNat + 10)
  else none

/-- The code that four digits of base sixteen are. -/
def code? : Text → Option Nat
  | [a, b, c, d] => do
    let a ← hexValue? a
    let b ← hexValue? b
    let c ← hexValue? c
    let d ← hexValue? d
    return ((a * 16 + b) * 16 + c) * 16 + d
  | _ => none

/-- One character of a string. Codes past the first 65536 are written in two halves. -/
inductive SpellsChar : Text → Char → Prop
  | plain (quote : c ≠ '"') (backslash : c ≠ '\\') (printable : 0x20 ≤ c.toNat) : SpellsChar [c] c
  | escape (known : escapes.lookup mark = some c) : SpellsChar ['\\', mark] c
  | code (digits : code? text = some c.toNat) : SpellsChar ('\\' :: 'u' :: text) c
  | codes (high : code? first = some (0xD800 + i)) (low : code? second = some (0xDC00 + j))
      (highBound : i < 0x400) (lowBound : j < 0x400)
      (whole : c.toNat = 0x10000 + i * 0x400 + j) :
      SpellsChar ('\\' :: 'u' :: first ++ '\\' :: 'u' :: second) c

/-- The characters of a string, without its quotes. -/
inductive SpellsString : Text → Text → Prop
  | nil : SpellsString [] []
  | cons (first : SpellsChar piece c) (rest : SpellsString pieces value) :
      SpellsString (piece ++ pieces) (c :: value)

/-! ## Numbers -/

/-- One digit or more. -/
def IsDigits (text : Text) : Prop :=
  text ≠ [] ∧ ∀ c ∈ text, c.isDigit = true

/-- What digits are worth, read as a whole number. -/
def wholeNumber (digits : Text) : Nat :=
  Nat.ofDigitChars 10 digits 0

/-- A number by its sign, all its digits and the power of ten that they count. -/
def decimal (negative : Bool) (digits : Text) (power : Int) : Rat :=
  (if negative then -1 else 1) * (wholeNumber digits : Rat) * (10 : Rat) ^ power

/-- A fraction and its digits, none if there is no fraction. -/
inductive SpellsFraction : Text → Text → Prop
  | absent : SpellsFraction [] []
  | digits (digits : IsDigits text) : SpellsFraction ('.' :: text) text

/-- A power of ten, zero if it is left out. -/
inductive SpellsPower : Text → Int → Prop
  | absent : SpellsPower [] 0
  | unsigned (letter : c = 'e' ∨ c = 'E') (digits : IsDigits text) :
      SpellsPower (c :: text) (wholeNumber text)
  | plus (letter : c = 'e' ∨ c = 'E') (digits : IsDigits text) :
      SpellsPower (c :: '+' :: text) (wholeNumber text)
  | minus (letter : c = 'e' ∨ c = 'E') (digits : IsDigits text) :
      SpellsPower (c :: '-' :: text) (-(wholeNumber text : Int))

/-- A number. Its whole part has no zero in front of another digit. -/
inductive SpellsNumber : Text → Rat → Prop
  | intro (negative : Bool) (whole : IsDigits digits)
      (noZero : digits.head? = some '0' → digits = ['0'])
      (fraction : SpellsFraction fractionText decimals)
      (exponent : SpellsPower powerText power) :
      SpellsNumber ((if negative then ['-'] else []) ++ (digits ++ (fractionText ++ powerText)))
        (decimal negative (digits ++ decimals) (power - decimals.length))

/-! ## Documents -/

/-- One item or more, with commas between them. -/
inductive Separated (Item : Text → α → Prop) : Text → List α → Prop
  | last (item : Item text value) : Separated Item text [value]
  | cons (item : Item text value) (rest : Separated Item more values) :
      Separated Item (text ++ ',' :: more) (value :: values)

/-- Any number of items between two brackets. -/
inductive Bracketed (opening closing : Char) (Item : Text → α → Prop) : Text → List α → Prop
  | empty (inside : Gap text) : Bracketed opening closing Item (opening :: text ++ [closing]) []
  | items (inside : Separated Item text values) :
      Bracketed opening closing Item (opening :: text ++ [closing]) values

/-- A name and what it is the name of, with gaps around both. -/
inductive Member (Item : Text → α → Prop) : Text → Text × α → Prop
  | intro (before : Gap front) (named : SpellsString body name) (behind : Gap back)
      (item : Padded Item text value) :
      Member Item (front ++ '"' :: body ++ '"' :: back ++ ':' :: text) (name, value)

/-- The three words and what they say. -/
def words : List (Text × Document) :=
  [("null".toList, .null), ("true".toList, .flag true), ("false".toList, .flag false)]

/-- What a JSON text says that has no gaps around it. -/
inductive Spells : Text → Document → Prop
  | word (known : (text, document) ∈ words) : Spells text document
  | number (spelled : SpellsNumber text value) : Spells text (.number value)
  | text (spelled : SpellsString body value) : Spells ('"' :: body ++ ['"']) (.text value)
  | list (spelled : Bracketed '[' ']' (Padded Spells) text items) : Spells text (.list items)
  | object (spelled : Bracketed '\x7b' '\x7d' (Member Spells) text members) :
      Spells text (.object members)

end ReleasePicker.Json
