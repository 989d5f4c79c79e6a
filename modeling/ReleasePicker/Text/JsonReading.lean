import ReleasePicker.Text.JsonGrammar

/-!
Reading a JSON text. Every reader takes what it reads off the front of a text and leaves the rest,
so readers are put together by handing on what is left. A list or an object can only hold what is
shorter than itself, so a bound on the nesting is no limit if the text is no longer than the bound.
-/
namespace ReleasePicker.Json

/-- Takes a value off the front of a text, and leaves what is behind it. -/
abbrev Reader (α : Type) := Text → Option (α × Text)

/-- What is behind the gap that a text starts with. -/
def skipGap (text : Text) : Text :=
  text.dropWhile isGap

/-! ## Strings -/

/-- The code that four digits of base sixteen are. -/
def readCode : Reader Nat := fun text =>
  (code? (text.take 4)).map fun code => (code, text.drop 4)

/-- The character that has a code, if one has. -/
def charOf? (code : Nat) : Option Char :=
  if code.isValidChar then some (Char.ofNat code) else none

/-- The second half of a pair of codes, and the character that the pair stands for. -/
def readSecond (high : Nat) : Reader Char
  | '\\' :: 'u' :: rest => do
    let (low, rest) ← readCode rest
    if 0xD800 ≤ high ∧ high < 0xDC00 ∧ 0xDC00 ≤ low ∧ low < 0xE000 then do
      let c ← charOf? (0x10000 + (high - 0xD800) * 0x400 + (low - 0xDC00))
      return (c, rest)
    else none
  | _ => none

/-- The character that a code stands for, together with the code behind it if the code is one half
of a pair. -/
def readCoded : Reader Char := fun text => do
  let (code, rest) ← readCode text
  match charOf? code with
  | some c => some (c, rest)
  | none => readSecond code rest

/-- One character of a string. -/
def readChar : Reader Char
  | '\\' :: 'u' :: rest => readCoded rest
  | '\\' :: mark :: rest => (escapes.lookup mark).map fun c => (c, rest)
  | c :: rest => if c = '"' ∨ c = '\\' ∨ c.toNat < 0x20 then none else some (c, rest)
  | [] => none

theorem length_of_readCode {text rest : Text} {code : Nat}
    (read : readCode text = some (code, rest)) : rest.length ≤ text.length := by
  obtain ⟨_, -, made⟩ := Option.map_eq_some_iff.mp read
  cases made
  simp

theorem length_of_readSecond {high : Nat} {text rest : Text} {c : Char}
    (read : readSecond high text = some (c, rest)) : rest.length ≤ text.length := by
  unfold readSecond at read
  split at read
  · obtain ⟨⟨low, behind⟩, second, read⟩ := Option.bind_eq_some_iff.mp read
    have shorter := length_of_readCode second
    obtain ⟨-, read⟩ := Option.ite_none_right_eq_some.mp read
    obtain ⟨_, -, made⟩ := Option.bind_eq_some_iff.mp read
    cases made
    simp only [List.length_cons]
    omega
  · cases read

theorem length_of_readCoded {text rest : Text} {c : Char}
    (read : readCoded text = some (c, rest)) : rest.length ≤ text.length := by
  obtain ⟨⟨code, behind⟩, first, read⟩ := Option.bind_eq_some_iff.mp read
  have shorter := length_of_readCode first
  dsimp only at read
  split at read
  · cases read
    exact shorter
  · exact Nat.le_trans (length_of_readSecond read) shorter

/-- A character takes something off the text, so reading one after another ends. -/
theorem length_of_readChar {text rest : Text} {c : Char}
    (read : readChar text = some (c, rest)) : rest.length < text.length := by
  unfold readChar at read
  split at read
  · have := length_of_readCoded read
    simp only [List.length_cons]
    omega
  · obtain ⟨_, -, made⟩ := Option.map_eq_some_iff.mp read
    cases made
    simp only [List.length_cons]
    omega
  · split at read
    · cases read
    · cases read
      simp
  · cases read

/-- A string that has been opened, up to its closing quote. -/
def readString (text : Text) : Option (Text × Text) :=
  if text.head? = some '"' then some ([], text.tail)
  else
    match _read : readChar text with
    | none => none
    | some (c, rest) => do
      let (value, behind) ← readString rest
      return (c :: value, behind)
termination_by text.length
decreasing_by exact length_of_readChar ‹_›

/-! ## Numbers -/

/-- As many digits as there are, one at least. -/
def readDigits : Reader Text := fun text =>
  let digits := text.takeWhile Char.isDigit
  if digits = [] then none else some (digits, text.dropWhile Char.isDigit)

/-- The digits of a fraction, none if there is no fraction. -/
def readFraction : Reader Text
  | '.' :: rest => readDigits rest
  | text => some ([], text)

/-- A whole number with or without a sign. -/
def readSigned : Reader Int
  | '-' :: rest => do
    let (digits, rest) ← readDigits rest
    return (-(wholeNumber digits : Int), rest)
  | '+' :: rest => do
    let (digits, rest) ← readDigits rest
    return ((wholeNumber digits : Int), rest)
  | text => do
    let (digits, rest) ← readDigits text
    return ((wholeNumber digits : Int), rest)

/-- A power of ten, zero if it is left out. -/
def readPower : Reader Int
  | c :: rest => if c = 'e' ∨ c = 'E' then readSigned rest else some (0, c :: rest)
  | [] => some (0, [])

/-- A number behind its sign. -/
def readUnsigned (negative : Bool) : Reader Rat := fun text => do
  let (digits, rest) ← readDigits text
  if digits.head? = some '0' ∧ digits ≠ ['0'] then none
  else do
    let (decimals, rest) ← readFraction rest
    let (power, rest) ← readPower rest
    return (decimal negative (digits ++ decimals) (power - decimals.length), rest)

/-- A number. -/
def readNumber : Reader Rat
  | '-' :: rest => readUnsigned true rest
  | text => readUnsigned false text

/-! ## Documents -/

/-- One of the three words. -/
def readWord : Reader Document := fun text =>
  words.findSome? fun (word, document) =>
    if word.isPrefixOf text then some (document, text.drop word.length) else none

/-- An item with any gaps around it. -/
def readPadded (read : Reader α) : Reader α := fun text => do
  let (value, rest) ← read (skipGap text)
  return (value, skipGap rest)

/-- Items with commas between them, up to a closing bracket. An item that takes nothing off the
text ends the reading. -/
def readItems (read : Reader α) (closing : Char) (text : Text) : Option (List α × Text) :=
  match read text with
  | some (value, c :: rest) =>
    if c = closing then some ([value], rest)
    else if c = ',' ∧ rest.length < text.length then do
      let (values, behind) ← readItems read closing rest
      return (value :: values, behind)
    else none
  | _ => none
termination_by text.length

/-- Any number of items behind an opening bracket. -/
def readBracketed (read : Reader α) (closing : Char) : Reader (List α) := fun text =>
  if (skipGap text).head? = some closing then some ([], (skipGap text).tail)
  else readItems read closing text

/-- A name and what it is the name of. -/
def readMember (read : Reader α) : Reader (Text × α) := fun text =>
  match skipGap text with
  | '"' :: rest => do
    let (name, rest) ← readString rest
    match skipGap rest with
    | ':' :: rest => do
      let (value, rest) ← readPadded read rest
      return ((name, value), rest)
    | _ => none
  | _ => none

/-- A document that is nested less deep than the bound. -/
def readDocument : Nat → Reader Document
  | 0, _ => none
  | bound + 1, text =>
    match text with
    | '"' :: rest => do
      let (value, rest) ← readString rest
      return (.text value, rest)
    | '[' :: rest => do
      let (items, rest) ← readBracketed (readPadded (readDocument bound)) ']' rest
      return (.list items, rest)
    | '\x7b' :: rest => do
      let (members, rest) ← readBracketed (readMember (readDocument bound)) '\x7d' rest
      return (.object members, rest)
    | text =>
      match readWord text with
      | some word => some word
      | none => do
        let (value, rest) ← readNumber text
        return (.number value, rest)

/-- What a JSON text says, if it is one from its beginning to its end. -/
def read? (text : Text) : Option Document :=
  match readPadded (readDocument text.length) text with
  | some (document, []) => some document
  | _ => none

end ReleasePicker.Json
