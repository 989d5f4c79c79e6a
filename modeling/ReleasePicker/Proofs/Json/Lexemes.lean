import ReleasePicker.Text.JsonReading
import Mathlib.Data.List.TakeWhile

/-!
The readers of gaps, strings and numbers take off the front of a text what the grammar knows. A
character and a string say themselves where they end. A gap and a number do not, they are read as
far as they go: the reader finds what the grammar has where nothing follows that could go on.
-/
namespace ReleasePicker.Json

/-! ## Gaps -/

theorem isGap_iff {c : Char} : isGap c = true ↔ c = ' ' ∨ c = '\t' ∨ c = '\n' ∨ c = '\r' := by
  simp [isGap, or_assoc]

theorem gap_nil : Gap [] := by
  simp [Gap]

theorem Gap.append {front back : Text} (before : Gap front) (behind : Gap back) :
    Gap (front ++ back) := by
  intro c member
  rcases List.mem_append.mp member with member | member
  · exact before c member
  · exact behind c member

theorem exists_gap (text : Text) : ∃ front, Gap front ∧ text = front ++ skipGap text :=
  ⟨text.takeWhile isGap, fun _ member => List.mem_takeWhile_imp member,
    List.takeWhile_append_dropWhile.symm⟩

/-- A gap is skipped up to where it ends. -/
theorem skipGap_append {front rest : Text} (gap : Gap front)
    (stop : ∀ c ∈ rest.head?, isGap c = false) : skipGap (front ++ rest) = rest := by
  rw [skipGap, List.dropWhile_append_of_pos gap]
  cases rest with
  | nil => rfl
  | cons c rest => simp [stop c rfl]

/-! ## Characters -/

theorem length_of_code? {digits : Text} {code : Nat} (known : code? digits = some code) :
    digits.length = 4 := by
  unfold code? at known
  split at known
  · rfl
  · cases known

theorem readCode_eq_some_iff {text rest : Text} {code : Nat} :
    readCode text = some (code, rest) ↔
      ∃ digits, code? digits = some code ∧ text = digits ++ rest := by
  constructor
  · intro read
    obtain ⟨_, known, made⟩ := Option.map_eq_some_iff.mp read
    cases made
    exact ⟨text.take 4, known, (List.take_append_drop 4 text).symm⟩
  · rintro ⟨digits, known, rfl⟩
    have size := length_of_code? known
    rw [readCode, List.take_left' size, List.drop_left' size, known]
    rfl

theorem charOf?_eq_some_iff {code : Nat} {c : Char} : charOf? code = some c ↔ code = c.toNat := by
  rw [charOf?, Option.ite_none_right_eq_some, Option.some.injEq]
  constructor
  · rintro ⟨valid, rfl⟩
    rw [Char.ofNat, dif_pos valid]
    rfl
  · rintro rfl
    exact ⟨c.valid, Char.ofNat_toNat c⟩

/-- The code of a character is never one half of a pair. -/
theorem charOf?_half {i : Nat} (bound : i < 0x400) : charOf? (0xD800 + i) = none := by
  rw [charOf?, if_neg]
  intro valid
  rcases valid with low | high <;> omega

theorem readSecond_eq_some_iff {high : Nat} {text rest : Text} {c : Char} :
    readSecond high text = some (c, rest) ↔
      ∃ second i j, high = 0xD800 + i ∧ code? second = some (0xDC00 + j) ∧ i < 0x400 ∧ j < 0x400 ∧
        c.toNat = 0x10000 + i * 0x400 + j ∧ text = '\\' :: 'u' :: second ++ rest := by
  constructor
  · intro read
    unfold readSecond at read
    split at read
    · rename_i behind
      obtain ⟨⟨low, after⟩, first, read⟩ := Option.bind_eq_some_iff.mp read
      obtain ⟨⟨least, highBound, lowLeast, lowBound⟩, read⟩ := Option.ite_none_right_eq_some.mp read
      obtain ⟨d, whole, made⟩ := Option.bind_eq_some_iff.mp read
      cases made
      obtain ⟨second, known, rfl⟩ := readCode_eq_some_iff.mp first
      have halves : low = 0xDC00 + (low - 0xDC00) := by omega
      rw [halves] at known
      refine ⟨second, high - 0xD800, low - 0xDC00, by omega, known, by omega, by omega, ?_, rfl⟩
      exact (charOf?_eq_some_iff.mp whole).symm
    · cases read
  · rintro ⟨second, i, j, rfl, known, highBound, lowBound, whole, rfl⟩
    have read : readCode (second ++ rest) = some (0xDC00 + j, rest) :=
      readCode_eq_some_iff.mpr ⟨second, known, rfl⟩
    have char := charOf?_eq_some_iff.mpr whole.symm
    have bounds : 0xD800 ≤ 0xD800 + i ∧ 0xD800 + i < 0xDC00 ∧ 0xDC00 ≤ 0xDC00 + j ∧
        0xDC00 + j < 0xE000 := by
      omega
    simp only [List.cons_append, readSecond, read, Option.bind_eq_bind, Option.bind_some, bounds,
      and_self, ↓reduceIte, Nat.add_sub_cancel_left, char, Option.pure_def]

theorem readCoded_eq_some_iff {text rest : Text} {c : Char} :
    readCoded text = some (c, rest) ↔
      ∃ piece, SpellsChar ('\\' :: 'u' :: piece) c ∧ text = piece ++ rest := by
  constructor
  · intro read
    obtain ⟨⟨code, behind⟩, first, found⟩ := Option.bind_eq_some_iff.mp read
    obtain ⟨digits, known, rfl⟩ := readCode_eq_some_iff.mp first
    dsimp only at found
    split at found
    · rename_i d char
      cases found
      rw [charOf?_eq_some_iff.mp char] at known
      exact ⟨digits, .code known, rfl⟩
    · obtain ⟨second, i, j, rfl, low, highBound, lowBound, whole, rfl⟩ :=
        readSecond_eq_some_iff.mp found
      exact ⟨digits ++ '\\' :: 'u' :: second, .codes known low highBound lowBound whole, by simp⟩
  · rintro ⟨piece, spelled, rfl⟩
    generalize written : '\\' :: 'u' :: piece = whole at spelled
    cases spelled with
    | plain => cases written
    | escape known =>
      cases written
      cases known
    | code digits =>
      cases written
      have read : readCode (piece ++ rest) = some (c.toNat, rest) :=
        readCode_eq_some_iff.mpr ⟨piece, digits, rfl⟩
      simp only [readCoded, read, Option.bind_eq_bind, Option.bind_some,
        charOf?_eq_some_iff.mpr rfl]
    | @codes first i second j _ high low highBound lowBound whole =>
      obtain rfl : piece = first ++ '\\' :: 'u' :: second := by simpa using written
      have read : readCode (first ++ '\\' :: 'u' :: second ++ rest) =
          some (0xD800 + i, '\\' :: 'u' :: second ++ rest) :=
        readCode_eq_some_iff.mpr ⟨first, high, by simp⟩
      simp only [readCoded, read, Option.bind_eq_bind, Option.bind_some, charOf?_half highBound]
      exact readSecond_eq_some_iff.mpr
        ⟨second, i, j, rfl, low, highBound, lowBound, whole, rfl⟩

/-- The reader takes one character off the front of a string, however it is written. -/
theorem readChar_eq_some_iff {text rest : Text} {c : Char} :
    readChar text = some (c, rest) ↔ ∃ piece, SpellsChar piece c ∧ text = piece ++ rest := by
  constructor
  · intro read
    unfold readChar at read
    split at read
    · obtain ⟨piece, spelled, rfl⟩ := readCoded_eq_some_iff.mp read
      exact ⟨_, spelled, rfl⟩
    · rename_i mark behind _
      obtain ⟨d, known, made⟩ := Option.map_eq_some_iff.mp read
      cases made
      exact ⟨['\\', mark], .escape known, rfl⟩
    · obtain ⟨other, made⟩ := Option.ite_none_left_eq_some.mp read
      cases made
      simp only [not_or, Nat.not_lt] at other
      exact ⟨[c], .plain other.1 other.2.1 other.2.2, rfl⟩
    · cases read
  · rintro ⟨piece, spelled, rfl⟩
    cases spelled with
    | plain quote backslash printable =>
      have other : ¬ (c = '"' ∨ c = '\\' ∨ c.toNat < 0x20) := by simp_all
      rw [List.singleton_append, readChar, if_neg other]
      · rintro rest' rfl; exact absurd rfl backslash
      · rintro mark rest' rfl; exact absurd rfl backslash
    | @escape mark _ known =>
      have marked : mark ≠ 'u' := by
        rintro rfl
        cases known
      rw [List.cons_append, List.singleton_append, readChar, known]
      · rfl
      · rintro rfl; exact absurd rfl marked
    | code digits =>
      rw [List.cons_append, List.cons_append, readChar]
      exact readCoded_eq_some_iff.mpr ⟨_, .code digits, rfl⟩
    | codes high low highBound lowBound whole =>
      rw [List.append_assoc, List.cons_append, List.cons_append, readChar]
      exact readCoded_eq_some_iff.mpr
        ⟨_, .codes high low highBound lowBound whole, by simp⟩

/-! ## Strings -/

/-- No character of a string is written with a quote in front. -/
theorem SpellsChar.head?_ne {piece : Text} (spelled : SpellsChar piece c) (rest : Text) :
    (piece ++ rest).head? ≠ some '"' := by
  cases spelled with
  | plain quote => simpa using quote
  | _ => simp

/-- The reader finds the closing quote of a string, and what the characters up to it say. -/
theorem readString_eq_some_iff {text rest : Text} {value : Text} :
    readString text = some (value, rest) ↔
      ∃ body, SpellsString body value ∧ text = body ++ '"' :: rest := by
  constructor
  · intro read
    fun_induction readString text generalizing value with
    | case1 text closed =>
      cases read
      obtain ⟨behind, rfl⟩ := List.head?_eq_some_iff.mp closed
      exact ⟨[], .nil, rfl⟩
    | case2 => cases read
    | case3 text _ c behind first ih =>
      obtain ⟨⟨value, after⟩, more, made⟩ := Option.bind_eq_some_iff.mp read
      cases made
      obtain ⟨piece, spelled, rfl⟩ := readChar_eq_some_iff.mp first
      obtain ⟨body, below, rfl⟩ := ih more
      exact ⟨piece ++ body, .cons spelled below, by simp⟩
  · rintro ⟨body, spelled, rfl⟩
    induction spelled with
    | nil => simp [readString]
    | @cons piece c pieces value first _ ih =>
      have read := readChar_eq_some_iff.mpr
        ⟨piece, first, List.append_assoc piece pieces ('"' :: rest)⟩
      have opened : (piece ++ pieces ++ '"' :: rest).head? ≠ some '"' := by
        rw [List.append_assoc]
        exact first.head?_ne _
      rw [readString, if_neg opened]
      split
      · rename_i none
        rw [none] at read
        cases read
      · rename_i d behind known
        rw [known] at read
        cases read
        rw [ih]
        rfl

/-! ## Numbers -/

/-- Nothing that a number could go on with. -/
def EndsNumber (rest : Text) : Prop :=
  ∀ c ∈ rest.head?, c.isDigit = false ∧ c ≠ '.' ∧ c ≠ 'e' ∧ c ≠ 'E'

theorem readDigits_of_digits {digits rest : Text} (known : IsDigits digits)
    (stop : ∀ c ∈ rest.head?, c.isDigit = false) :
    readDigits (digits ++ rest) = some (digits, rest) := by
  have taken : (digits ++ rest).takeWhile Char.isDigit = digits := by
    rw [List.takeWhile_append_of_pos known.2]
    cases rest with
    | nil => simp
    | cons c rest => simp [stop c rfl]
  have left : (digits ++ rest).dropWhile Char.isDigit = rest := by
    rw [List.dropWhile_append_of_pos known.2]
    cases rest with
    | nil => rfl
    | cons c rest => simp [stop c rfl]
  simp only [readDigits, taken, left, known.1, ↓reduceIte]

theorem digits_of_readDigits {text digits rest : Text}
    (read : readDigits text = some (digits, rest)) : IsDigits digits ∧ text = digits ++ rest := by
  simp only [readDigits] at read
  split at read
  · cases read
  · rename_i some
    cases read
    exact ⟨⟨some, fun _ member => List.mem_takeWhile_imp member⟩,
      List.takeWhile_append_dropWhile.symm⟩

theorem readFraction_of_spells {text decimals rest : Text} (spelled : SpellsFraction text decimals)
    (stop : ∀ c ∈ rest.head?, c.isDigit = false ∧ c ≠ '.') :
    readFraction (text ++ rest) = some (decimals, rest) := by
  cases spelled with
  | absent =>
    rw [List.nil_append, readFraction]
    rintro behind rfl
    exact (stop '.' rfl).2 rfl
  | digits known =>
    rw [List.cons_append, readFraction]
    exact readDigits_of_digits known fun c member => (stop c member).1

theorem spells_of_readFraction {text decimals rest : Text}
    (read : readFraction text = some (decimals, rest)) :
    ∃ head, SpellsFraction head decimals ∧ text = head ++ rest := by
  unfold readFraction at read
  split at read
  · obtain ⟨known, rfl⟩ := digits_of_readDigits read
    exact ⟨_, .digits known, rfl⟩
  · cases read
    exact ⟨[], .absent, rfl⟩

theorem ne_sign_of_digits {digits : Text} (known : IsDigits digits) (rest : Text) :
    (digits ++ rest).head? ≠ some '-' ∧ (digits ++ rest).head? ≠ some '+' := by
  obtain ⟨c, more, rfl⟩ := List.exists_cons_of_ne_nil known.1
  have digit := known.2 c (by simp)
  constructor <;>
  · intro sign
    cases Option.some.inj sign
    cases digit

theorem readSigned_of_digits {digits rest : Text} (known : IsDigits digits)
    (stop : ∀ c ∈ rest.head?, c.isDigit = false) :
    readSigned (digits ++ rest) = some ((wholeNumber digits : Int), rest) ∧
      readSigned ('+' :: (digits ++ rest)) = some ((wholeNumber digits : Int), rest) ∧
      readSigned ('-' :: (digits ++ rest)) = some (-(wholeNumber digits : Int), rest) := by
  have read := readDigits_of_digits known stop
  have unsigned := ne_sign_of_digits known rest
  refine ⟨?_, ?_, ?_⟩
  · rw [readSigned, read]
    · rfl
    · intro behind same; exact unsigned.1 (by rw [same]; rfl)
    · intro behind same; exact unsigned.2 (by rw [same]; rfl)
  · rw [readSigned, read]; rfl
  · rw [readSigned, read]; rfl

theorem readPower_of_spells {text rest : Text} {power : Int} (spelled : SpellsPower text power)
    (stop : ∀ c ∈ rest.head?, c.isDigit = false ∧ c ≠ 'e' ∧ c ≠ 'E') :
    readPower (text ++ rest) = some (power, rest) := by
  have noDigit : ∀ c ∈ rest.head?, c.isDigit = false := fun c member => (stop c member).1
  cases spelled with
  | absent =>
    cases rest with
    | nil => rfl
    | cons c rest =>
      have other := stop c rfl
      simp [readPower, other]
  | unsigned letter known =>
    rw [List.cons_append, readPower, if_pos letter]
    exact (readSigned_of_digits known noDigit).1
  | plus letter known =>
    rw [List.cons_append, readPower, if_pos letter]
    exact (readSigned_of_digits known noDigit).2.1
  | minus letter known =>
    rw [List.cons_append, readPower, if_pos letter]
    exact (readSigned_of_digits known noDigit).2.2

theorem spells_of_readPower {text rest : Text} {power : Int}
    (read : readPower text = some (power, rest)) :
    ∃ head, SpellsPower head power ∧ text = head ++ rest := by
  unfold readPower at read
  split at read
  · split at read
    · rename_i letter
      unfold readSigned at read
      split at read <;>
        obtain ⟨⟨digits, behind⟩, first, made⟩ := Option.bind_eq_some_iff.mp read <;>
        cases made <;>
        obtain ⟨known, rfl⟩ := digits_of_readDigits first
      · exact ⟨_, .minus letter known, rfl⟩
      · exact ⟨_, .plus letter known, rfl⟩
      · exact ⟨_, .unsigned letter known, rfl⟩
    · cases read
      exact ⟨[], .absent, rfl⟩
  · cases read
    exact ⟨[], .absent, rfl⟩

/-- A power starts with its letter, and nothing that follows a number is a digit or a point. -/
theorem SpellsPower.stops {text rest : Text} {power : Int} (spelled : SpellsPower text power)
    (stop : EndsNumber rest) : ∀ c ∈ (text ++ rest).head?, c.isDigit = false ∧ c ≠ '.' := by
  intro c member
  cases spelled with
  | absent => exact ⟨(stop c member).1, (stop c member).2.1⟩
  | unsigned letter | plus letter | minus letter =>
    cases Option.some.inj member
    rcases letter with rfl | rfl <;> decide

theorem SpellsFraction.stops {text decimals rest : Text} (spelled : SpellsFraction text decimals)
    (stop : ∀ c ∈ rest.head?, c.isDigit = false) :
    ∀ c ∈ (text ++ rest).head?, c.isDigit = false := by
  intro c member
  cases spelled with
  | absent => exact stop c member
  | digits =>
    cases Option.some.inj member
    rfl

theorem readUnsigned_of_spells {digits fractionText decimals powerText rest : Text} {power : Int}
    (negative : Bool) (whole : IsDigits digits)
    (noZero : digits.head? = some '0' → digits = ['0'])
    (fraction : SpellsFraction fractionText decimals) (exponent : SpellsPower powerText power)
    (stop : EndsNumber rest) :
    readUnsigned negative (digits ++ (fractionText ++ powerText) ++ rest) =
      some (decimal negative (digits ++ decimals) (power - decimals.length), rest) := by
  have afterFraction := exponent.stops stop
  have afterWhole := fraction.stops fun c member => (afterFraction c member).1
  have last := readPower_of_spells exponent fun c member =>
    ⟨(stop c member).1, (stop c member).2.2⟩
  have allowed : ¬ (digits.head? = some '0' ∧ digits ≠ ['0']) := by simpa using noZero
  rw [List.append_assoc, List.append_assoc]
  simp only [readUnsigned, readDigits_of_digits whole afterWhole, Option.bind_eq_bind,
    Option.bind_some, allowed, ↓reduceIte, readFraction_of_spells fraction afterFraction, last,
    Option.pure_def]

theorem exists_of_readUnsigned {negative : Bool} {text rest : Text} {value : Rat}
    (read : readUnsigned negative text = some (value, rest)) :
    ∃ head, SpellsNumber ((if negative then ['-'] else []) ++ head) value ∧
      text = head ++ rest := by
  obtain ⟨⟨digits, behind⟩, first, found⟩ := Option.bind_eq_some_iff.mp read
  obtain ⟨allowed, found⟩ := Option.ite_none_left_eq_some.mp found
  obtain ⟨⟨decimals, after⟩, second, found⟩ := Option.bind_eq_some_iff.mp found
  obtain ⟨⟨power, left⟩, third, made⟩ := Option.bind_eq_some_iff.mp found
  cases made
  obtain ⟨whole, rfl⟩ := digits_of_readDigits first
  obtain ⟨fractionText, fraction, rfl⟩ := spells_of_readFraction second
  obtain ⟨powerText, exponent, rfl⟩ := spells_of_readPower third
  have noZero : digits.head? = some '0' → digits = ['0'] := by simpa using allowed
  exact ⟨_, .intro negative whole noZero fraction exponent, by simp⟩

/-- A number is read to its end if nothing behind it could belong to it. -/
theorem readNumber_of_spells {text rest : Text} {value : Rat} (spelled : SpellsNumber text value)
    (stop : EndsNumber rest) : readNumber (text ++ rest) = some (value, rest) := by
  obtain ⟨negative, whole, noZero, fraction, exponent⟩ := spelled
  have read := readUnsigned_of_spells negative whole noZero fraction exponent stop
  cases negative with
  | true => exact read
  | false =>
    rw [List.append_assoc] at read
    have unsigned (behind : Text) := (ne_sign_of_digits whole behind).1
    rw [if_neg (by simp), List.nil_append, List.append_assoc, readNumber]
    · exact read
    · intro behind same
      exact unsigned _ (by rw [same]; rfl)

theorem spells_of_readNumber {text rest : Text} {value : Rat}
    (read : readNumber text = some (value, rest)) :
    ∃ head, SpellsNumber head value ∧ text = head ++ rest := by
  unfold readNumber at read
  split at read
  · obtain ⟨head, spelled, rfl⟩ := exists_of_readUnsigned read
    exact ⟨'-' :: head, spelled, rfl⟩
  · obtain ⟨head, spelled, rfl⟩ := exists_of_readUnsigned read
    exact ⟨head, spelled, rfl⟩

/-- A number starts with a digit or with its sign. -/
theorem SpellsNumber.exists_head {text : Text} {value : Rat} (spelled : SpellsNumber text value) :
    ∃ c rest, text = c :: rest ∧ (c = '-' ∨ c.isDigit = true) := by
  obtain ⟨negative, whole, -, -, -⟩ := spelled
  obtain ⟨c, more, rfl⟩ := List.exists_cons_of_ne_nil whole.1
  cases negative with
  | true => exact ⟨'-', _, rfl, .inl rfl⟩
  | false => exact ⟨c, _, rfl, .inr (whole.2 c (by simp))⟩

end ReleasePicker.Json
