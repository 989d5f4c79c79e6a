import ReleasePicker.Text.Utf8
import Mathlib.Data.List.Basic

/-!
What UTF-8 keeps of a text: the offsets of the library are the offsets of the encoded bytes, bytes
that are text are the bytes of that text (`encode_of_decode?`), and a lenient reading only ever puts
replacement characters in.
-/
namespace ReleasePicker.Utf8

theorem length_encodeChar (c : Char) : (encodeChar c).length = c.utf8Size := by
  have size : c.utf8Size =
      if c.toNat ≤ 0x7F then 1 else if c.toNat ≤ 0x7FF then 2
        else if c.toNat ≤ 0xFFFF then 3 else 4 := by
    simp only [Char.utf8Size, UInt32.le_iff_toNat_le]
    rfl
  rw [size]
  unfold encodeChar
  dsimp only
  split_ifs <;> first | rfl | omega

theorem encode_cons (c : Char) (text : Text) :
    encode (c :: text) = encodeChar c ++ encode text :=
  rfl

@[simp] theorem encode_append (left right : Text) :
    encode (left ++ right) = encode left ++ encode right := by
  simp [encode]

/-- A text takes as many bytes as the library counts. -/
@[simp] theorem length_encode (text : Text) : (encode text).length = Text.byteLength text := by
  induction text with
  | nil => rfl
  | cons c rest ih =>
    rw [encode_cons, List.length_append, length_encodeChar, ih, Text.byteLength_cons]

/-- The bytes in front of an offset between two characters. -/
theorem take_encode (left right : Text) :
    (encode (left ++ right)).take (Text.byteLength left) = encode left := by
  rw [encode_append, ← length_encode, List.take_left]

/-- The bytes behind an offset between two characters. -/
theorem drop_encode (left right : Text) :
    (encode (left ++ right)).drop (Text.byteLength left) = encode right := by
  rw [encode_append, ← length_encode, List.drop_left]

/-- A byte below 0x80 is a character by itself. -/
theorem toNat_of_mem_encodeChar {byte : UInt8} {c : Char} (member : byte ∈ encodeChar c)
    (single : byte.toNat < 0x80) : byte.toNat = c.toNat := by
  have bound : c.toNat < 0x110000 := by
    have valid := c.valid
    unfold UInt32.isValidChar Nat.isValidChar at valid
    have same : c.toNat = c.val.toNat := rfl
    omega
  unfold encodeChar at member
  dsimp only at member
  split_ifs at member <;> simp only [List.mem_cons, List.not_mem_nil, or_false] at member
  · rw [member, UInt8.toNat_ofNat']
    omega
  all_goals
    exfalso
    rcases member with rfl | rfl | rfl | rfl <;> simp at single <;> omega

/-! ## Decoding -/

private theorem continuation?_eq_some {low high : Nat} {bytes rest : Bytes} {bits : Nat}
    (found : continuation? low high bytes = some (bits, rest)) :
    ∃ byte : UInt8, bytes = byte :: rest ∧ low ≤ byte.toNat ∧ byte.toNat ≤ high ∧
      bits = byte.toNat % 64 := by
  cases bytes with
  | nil => cases found
  | cons byte more =>
    simp only [continuation?] at found
    split at found
    · rename_i within
      cases found
      exact ⟨byte, rfl, within.1, within.2, rfl⟩
    · cases found

private theorem toNat_ofNat {code : Nat} (valid : code.isValidChar) :
    (Char.ofNat code).toNat = code := by
  rw [Char.ofNat, dif_pos valid]
  rfl

private theorem ofNat_eq {byte : UInt8} {code : Nat} (same : code = byte.toNat) :
    UInt8.ofNat code = byte := by
  rw [same, UInt8.ofNat_toNat]

private theorem encodeChar_one {lead : UInt8} (first : lead.toNat < 0x80) :
    encodeChar (Char.ofNat lead.toNat) = [lead] := by
  have valid : lead.toNat.isValidChar := .inl (by omega)
  simp only [encodeChar, toNat_ofNat valid, if_pos first, UInt8.ofNat_toNat]

private theorem encodeChar_two {lead low : UInt8} (first : 0xC2 ≤ lead.toNat ∧ lead.toNat < 0xE0)
    (second : 0x80 ≤ low.toNat ∧ low.toNat ≤ 0xBF) :
    encodeChar (Char.ofNat ((lead.toNat - 0xC0) * 64 + low.toNat % 64)) = [lead, low] := by
  have valid : ((lead.toNat - 0xC0) * 64 + low.toNat % 64).isValidChar := .inl (by omega)
  simp only [encodeChar, toNat_ofNat valid]
  rw [if_neg (by omega), if_pos (by omega), @ofNat_eq lead _ (by omega), @ofNat_eq low _ (by omega)]

private theorem encodeChar_three {lead middle low : UInt8}
    (first : 0xE0 ≤ lead.toNat ∧ lead.toNat < 0xF0)
    (second : (if lead.toNat = 0xE0 then 0xA0 else 0x80) ≤ middle.toNat ∧
      middle.toNat ≤ if lead.toNat = 0xED then 0x9F else 0xBF)
    (third : 0x80 ≤ low.toNat ∧ low.toNat ≤ 0xBF) :
    encodeChar (Char.ofNat ((lead.toNat - 0xE0) * 4096 + middle.toNat % 64 * 64 + low.toNat % 64)) =
      [lead, middle, low] := by
  have valid : ((lead.toNat - 0xE0) * 4096 + middle.toNat % 64 * 64 +
      low.toNat % 64).isValidChar := by
    unfold Nat.isValidChar
    split at second <;> split at second <;> omega
  have long : 0x800 ≤ (lead.toNat - 0xE0) * 4096 + middle.toNat % 64 * 64 + low.toNat % 64 := by
    split at second <;> split at second <;> omega
  have range : 0x80 ≤ middle.toNat ∧ middle.toNat ≤ 0xBF := by
    split at second <;> split at second <;> omega
  simp only [encodeChar, toNat_ofNat valid]
  rw [if_neg (by omega), if_neg (by omega), if_pos (by omega), @ofNat_eq lead _ (by omega),
    @ofNat_eq middle _ (by omega), @ofNat_eq low _ (by omega)]

private theorem encodeChar_four {lead high middle low : UInt8}
    (first : 0xF0 ≤ lead.toNat ∧ lead.toNat < 0xF5)
    (second : (if lead.toNat = 0xF0 then 0x90 else 0x80) ≤ high.toNat ∧
      high.toNat ≤ if lead.toNat = 0xF4 then 0x8F else 0xBF)
    (third : 0x80 ≤ middle.toNat ∧ middle.toNat ≤ 0xBF)
    (fourth : 0x80 ≤ low.toNat ∧ low.toNat ≤ 0xBF) :
    encodeChar (Char.ofNat ((lead.toNat - 0xF0) * 262144 + high.toNat % 64 * 4096 +
      middle.toNat % 64 * 64 + low.toNat % 64)) = [lead, high, middle, low] := by
  have range : 0x80 ≤ high.toNat ∧ high.toNat ≤ 0xBF ∧
      0x10000 ≤ (lead.toNat - 0xF0) * 262144 + high.toNat % 64 * 4096 ∧
      (lead.toNat - 0xF0) * 262144 + high.toNat % 64 * 4096 < 0x110000 := by
    split at second <;> split at second <;> omega
  have valid : ((lead.toNat - 0xF0) * 262144 + high.toNat % 64 * 4096 + middle.toNat % 64 * 64 +
      low.toNat % 64).isValidChar := .inr (by omega)
  simp only [encodeChar, toNat_ofNat valid]
  rw [if_neg (by omega), if_neg (by omega), if_neg (by omega), @ofNat_eq lead _ (by omega),
    @ofNat_eq high _ (by omega), @ofNat_eq middle _ (by omega), @ofNat_eq low _ (by omega)]

/-- A piece that is a character is the character's bytes, and a broken one is three bytes long at
most. -/
theorem nextPiece_spec {first : UInt8} {rest after : Bytes} {piece : Option Char}
    (next : nextPiece first rest = (piece, after)) :
    match piece with
    | some c => first :: rest = encodeChar c ++ after
    | none => ∃ broken, first :: rest = broken ++ after ∧ broken.length ≤ 3 := by
  unfold nextPiece at next
  dsimp only at next
  split at next
  · rename_i lead
    cases next
    simp [encodeChar_one lead]
  split at next
  · rename_i lead
    split at next
    · cases next
      exact ⟨[first], rfl, by simp⟩
    · rename_i bits more second
      cases next
      obtain ⟨low, rfl, lowFirst, lowLast, rfl⟩ := continuation?_eq_some second
      simp [encodeChar_two lead ⟨lowFirst, lowLast⟩]
  split at next
  · rename_i lead
    split at next
    · cases next
      exact ⟨[first], rfl, by simp⟩
    · rename_i bits more second
      obtain ⟨middle, rfl, middleFirst, middleLast, rfl⟩ := continuation?_eq_some second
      split at next
      · cases next
        exact ⟨[first, middle], rfl, by simp⟩
      · rename_i bits' more' third
        cases next
        obtain ⟨low, rfl, lowFirst, lowLast, rfl⟩ := continuation?_eq_some third
        simp [encodeChar_three lead ⟨middleFirst, middleLast⟩ ⟨lowFirst, lowLast⟩]
  split at next
  · rename_i lead
    split at next
    · cases next
      exact ⟨[first], rfl, by simp⟩
    · rename_i bits more second
      obtain ⟨high, rfl, highFirst, highLast, rfl⟩ := continuation?_eq_some second
      split at next
      · cases next
        exact ⟨[first, high], rfl, by simp⟩
      · rename_i bits' more' third
        obtain ⟨middle, rfl, middleFirst, middleLast, rfl⟩ := continuation?_eq_some third
        split at next
        · cases next
          exact ⟨[first, high, middle], rfl, by simp⟩
        · rename_i bits'' more'' fourth
          cases next
          obtain ⟨low, rfl, lowFirst, lowLast, rfl⟩ := continuation?_eq_some fourth
          simp [encodeChar_four lead ⟨highFirst, highLast⟩ ⟨middleFirst, middleLast⟩
            ⟨lowFirst, lowLast⟩]
  · cases next
    exact ⟨[first], rfl, by simp⟩

/-! ## The lenient reading -/

theorem decodeLossy_cons (first : UInt8) (rest : Bytes) :
    decodeLossy (first :: rest) =
      (nextPiece first rest).1.getD '\uFFFD' :: decodeLossy (nextPiece first rest).2 := by
  simp [decodeLossy, pieces]

/-- The lenient reading brings no bytes in but those of the replacement character. -/
theorem mem_of_mem_encode_decodeLossy {bytes : Bytes} {byte : UInt8}
    (member : byte ∈ encode (decodeLossy bytes)) :
    byte ∈ bytes ∨ byte ∈ encodeChar '\uFFFD' := by
  induction bytes using pieces.induct with
  | case1 => simp [decodeLossy, pieces, encode] at member
  | case2 first rest ih =>
    obtain ⟨⟨piece, after⟩, next⟩ : ∃ result, nextPiece first rest = result := ⟨_, rfl⟩
    have spec := nextPiece_spec next
    rw [next] at ih
    rw [decodeLossy_cons, next, encode_cons, List.mem_append] at member
    cases piece with
    | some c =>
      rw [spec, List.mem_append, or_assoc]
      exact member.imp id ih
    | none =>
      obtain ⟨broken, split, -⟩ := spec
      rw [split, List.mem_append]
      rcases member with member | member
      · exact .inr member
      · exact (ih member).imp .inr id

/-- The lenient reading loses no length, for a broken piece is no longer than the replacement
character. -/
theorem length_le_encode_decodeLossy (bytes : Bytes) :
    bytes.length ≤ (encode (decodeLossy bytes)).length := by
  induction bytes using pieces.induct with
  | case1 => simp
  | case2 first rest ih =>
    obtain ⟨⟨piece, after⟩, next⟩ : ∃ result, nextPiece first rest = result := ⟨_, rfl⟩
    have spec := nextPiece_spec next
    rw [next] at ih
    rw [decodeLossy_cons, next, encode_cons, List.length_append]
    cases piece with
    | some c =>
      rw [spec, List.length_append]
      exact Nat.add_le_add_left ih _
    | none =>
      obtain ⟨broken, split, short⟩ := spec
      rw [split, List.length_append]
      exact Nat.add_le_add short ih

/-- Bytes that are UTF-8 throughout are the bytes of their text. -/
theorem encode_of_decode? {bytes : Bytes} {text : Text} (read : decode? bytes = some text) :
    encode text = bytes := by
  induction bytes using pieces.induct generalizing text with
  | case1 =>
    simp only [decode?, pieces, List.mapM_nil, Option.pure_def, Option.some.injEq] at read
    rw [← read]
    rfl
  | case2 first rest ih =>
    obtain ⟨⟨piece, after⟩, next⟩ : ∃ result, nextPiece first rest = result := ⟨_, rfl⟩
    have spec := nextPiece_spec next
    rw [next] at ih
    rw [decode?, pieces, next, List.mapM_cons] at read
    cases piece with
    | none => cases read
    | some c =>
      simp only [id, Option.bind_eq_bind, Option.bind_some, Option.bind_eq_some_iff,
        Option.pure_def, Option.some.injEq] at read
      obtain ⟨more, below, rfl⟩ := read
      rw [encode_cons, spec, ih below]

/-! ## Reading what was written -/

private theorem toNat_byte {code : Nat} (small : code < 256) : (UInt8.ofNat code).toNat = code :=
  UInt8.toNat_ofNat_of_lt small

private theorem continuation?_ofNat {low high code : Nat} (small : code < 256)
    (within : low ≤ code ∧ code ≤ high) (rest : Bytes) :
    continuation? low high (UInt8.ofNat code :: rest) = some (code % 64, rest) := by
  rw [continuation?, toNat_byte small, if_pos within]

private theorem ofNat_toNat (c : Char) {code : Nat} (same : code = c.toNat) : Char.ofNat code = c := by
  rw [same, Char.ofNat_toNat]

private theorem code_cases (c : Char) :
    c.toNat < 0xD800 ∨ 0xDFFF < c.toNat ∧ c.toNat < 0x110000 :=
  c.valid

/-- Of the bytes of a character, followed by others, the first piece is the character. -/
theorem nextPiece_encodeChar (c : Char) (rest : Bytes) :
    ∃ first more, encodeChar c = first :: more ∧
      nextPiece first (more ++ rest) = (some c, rest) := by
  have code := code_cases c
  unfold encodeChar
  dsimp only
  split
  · rename_i one
    refine ⟨_, _, rfl, ?_⟩
    simp only [nextPiece, toNat_byte (show c.toNat < 256 by omega)]
    rw [if_pos one, ofNat_toNat c rfl]
    rfl
  split
  · rename_i more two
    refine ⟨_, _, rfl, ?_⟩
    simp only [nextPiece, toNat_byte (show 0xC0 + c.toNat / 64 < 256 by omega), List.cons_append,
      List.nil_append]
    rw [if_neg (by omega), if_pos (by omega), continuation?_ofNat (by omega) (by omega)]
    dsimp only
    rw [ofNat_toNat c (by omega)]
  split
  · rename_i more evenMore three
    refine ⟨_, _, rfl, ?_⟩
    simp only [nextPiece, toNat_byte (show 0xE0 + c.toNat / 4096 < 256 by omega), List.cons_append,
      List.nil_append]
    rw [if_neg (by omega), if_neg (by omega), if_pos (by omega),
      continuation?_ofNat (by omega) (by split <;> split <;> omega)]
    dsimp only
    rw [continuation?_ofNat (by omega) (by omega)]
    dsimp only
    rw [ofNat_toNat c (by omega)]
  · refine ⟨_, _, rfl, ?_⟩
    simp only [nextPiece, toNat_byte (show 0xF0 + c.toNat / 262144 < 256 by omega),
      List.cons_append, List.nil_append]
    rw [if_neg (by omega), if_neg (by omega), if_neg (by omega), if_pos (by omega),
      continuation?_ofNat (by omega) (by split <;> split <;> omega)]
    dsimp only
    rw [continuation?_ofNat (by omega) (by omega)]
    dsimp only
    rw [continuation?_ofNat (by omega) (by omega)]
    dsimp only
    rw [ofNat_toNat c (by omega)]

/-- The bytes of a text are read as the text. -/
theorem decode?_encode (text : Text) : decode? (encode text) = some text := by
  induction text with
  | nil =>
    unfold decode?
    simp [encode, pieces]
  | cons c rest ih =>
    obtain ⟨first, more, written, next⟩ := nextPiece_encodeChar c (encode rest)
    unfold decode? at ih
    rw [encode_cons, written, List.cons_append, decode?, pieces, next, List.mapM_cons, ih]
    rfl

end ReleasePicker.Utf8
