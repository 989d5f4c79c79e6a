import ReleasePicker.Text.Basic

/-!
UTF-8. Bytes are read piece by piece, a piece being a character or a broken sequence, and both
readings of bytes as text follow from the pieces: the strict one refuses bytes with a broken piece,
the lenient one shows every broken piece as one replacement character. A broken piece is as long as
it can be and still be the start of a character, or else one byte.
-/
namespace ReleasePicker.Utf8

/-- The bytes of one character, in the shortest form. -/
def encodeChar (c : Char) : Bytes :=
  let code := c.toNat
  if code < 0x80 then
    [UInt8.ofNat code]
  else if code < 0x800 then
    [UInt8.ofNat (0xC0 + code / 64), UInt8.ofNat (0x80 + code % 64)]
  else if code < 0x10000 then
    [UInt8.ofNat (0xE0 + code / 4096), UInt8.ofNat (0x80 + code / 64 % 64),
     UInt8.ofNat (0x80 + code % 64)]
  else
    [UInt8.ofNat (0xF0 + code / 262144), UInt8.ofNat (0x80 + code / 4096 % 64),
     UInt8.ofNat (0x80 + code / 64 % 64), UInt8.ofNat (0x80 + code % 64)]

/-- The bytes of a text. -/
def encode (text : Text) : Bytes :=
  text.flatMap encodeChar

/-- A continuation byte between two bounds: its six payload bits and what follows it. -/
def continuation? (low high : Nat) : Bytes → Option (Nat × Bytes)
  | [] => none
  | byte :: rest =>
    if low ≤ byte.toNat ∧ byte.toNat ≤ high then some (byte.toNat % 64, rest) else none

/-- The piece that starts with `first`, `none` if it is broken, and the bytes after the piece. The
bounds on the second byte rule out overlong forms, surrogates and code points past the last. -/
def nextPiece (first : UInt8) (rest : Bytes) : Option Char × Bytes :=
  let lead := first.toNat
  if lead < 0x80 then
    (some (Char.ofNat lead), rest)
  else if 0xC2 ≤ lead ∧ lead < 0xE0 then
    match continuation? 0x80 0xBF rest with
    | none => (none, rest)
    | some (low, rest) => (some (Char.ofNat ((lead - 0xC0) * 64 + low)), rest)
  else if 0xE0 ≤ lead ∧ lead < 0xF0 then
    match continuation? (if lead = 0xE0 then 0xA0 else 0x80) (if lead = 0xED then 0x9F else 0xBF)
        rest with
    | none => (none, rest)
    | some (middle, rest) =>
      match continuation? 0x80 0xBF rest with
      | none => (none, rest)
      | some (low, rest) => (some (Char.ofNat ((lead - 0xE0) * 4096 + middle * 64 + low)), rest)
  else if 0xF0 ≤ lead ∧ lead < 0xF5 then
    match continuation? (if lead = 0xF0 then 0x90 else 0x80) (if lead = 0xF4 then 0x8F else 0xBF)
        rest with
    | none => (none, rest)
    | some (high, rest) =>
      match continuation? 0x80 0xBF rest with
      | none => (none, rest)
      | some (middle, rest) =>
        match continuation? 0x80 0xBF rest with
        | none => (none, rest)
        | some (low, rest) =>
          (some (Char.ofNat ((lead - 0xF0) * 262144 + high * 4096 + middle * 64 + low)), rest)
  else
    (none, rest)

theorem length_of_continuation? {low high : Nat} {bytes rest : Bytes} {bits : Nat}
    (found : continuation? low high bytes = some (bits, rest)) : rest.length < bytes.length := by
  cases bytes with
  | nil => simp [continuation?] at found
  | cons byte more =>
    simp only [continuation?] at found
    split at found
    · cases found; simp
    · cases found

/-- A piece takes at least its first byte, so reading piece by piece ends. -/
theorem length_nextPiece_le (first : UInt8) (rest : Bytes) :
    (nextPiece first rest).2.length ≤ rest.length := by
  unfold nextPiece
  dsimp only
  split
  · simp
  split
  · split
    · simp
    · rename_i found; exact Nat.le_of_lt (length_of_continuation? found)
  split
  · split
    · simp
    · rename_i second
      have shorter := length_of_continuation? second
      split
      · exact Nat.le_of_lt shorter
      · rename_i third
        have := length_of_continuation? third
        dsimp only
        omega
  split
  · split
    · simp
    · rename_i second
      have shorter := length_of_continuation? second
      split
      · exact Nat.le_of_lt shorter
      · rename_i third
        have shorterStill := length_of_continuation? third
        split
        · dsimp only; omega
        · rename_i fourth
          have := length_of_continuation? fourth
          dsimp only
          omega
  · simp

/-- The pieces of a byte sequence in order, `none` for each broken one. -/
def pieces : Bytes → List (Option Char)
  | [] => []
  | first :: rest => (nextPiece first rest).1 :: pieces (nextPiece first rest).2
termination_by bytes => bytes.length
decreasing_by
  have := length_nextPiece_le first rest
  simp only [List.length_cons]
  omega

/-- The bytes as text, if they are UTF-8 throughout. -/
def decode? (bytes : Bytes) : Option Text :=
  (pieces bytes).mapM id

/-- The bytes as text for a reader, with U+FFFD for each broken piece. -/
def decodeLossy (bytes : Bytes) : Text :=
  (pieces bytes).map fun piece => piece.getD '\uFFFD'

end ReleasePicker.Utf8
