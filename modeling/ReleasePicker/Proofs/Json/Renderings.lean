import ReleasePicker.Text.Json
import ReleasePicker.Proofs.Json.Documents
import Mathlib

/-!
What is rendered is a JSON text of the grammar, and says what was rendered. Characters are escaped
as the grammar has them, digits make a number without a zero in front, and the lines that items are
laid out on are gaps that every item may have around it.
-/
namespace ReleasePicker.Json

/-! ## Strings -/

theorem hexValue?_digitChar {digit : Nat} (small : digit < 16) :
    hexValue? (Nat.digitChar digit) = some digit := by
  interval_cases digit <;> rfl

/-- A control character without an escape of its own is written by its code. -/
theorem code?_twoHexDigits {code : Nat} (small : code < 256) :
    code? ('0' :: '0' :: twoHexDigits code) = some code := by
  have high := hexValue?_digitChar (show code / 16 < 16 by omega)
  have low := hexValue?_digitChar (show code % 16 < 16 by omega)
  have zero : hexValue? '0' = some 0 := rfl
  have whole : ((0 * 16 + 0) * 16 + code / 16) * 16 + code % 16 = code := by omega
  simp only [twoHexDigits, code?, high, low, zero, Option.bind_eq_bind, Option.bind_some,
    Option.pure_def, whole]

theorem spellsChar_escapeChar (c : Char) : SpellsChar (escapeChar c) c := by
  unfold escapeChar
  split_ifs with marked feed carriage tab back form control
  · rcases marked with rfl | rfl <;> exact .escape rfl
  · exact feed ▸ .escape rfl
  · exact carriage ▸ .escape rfl
  · exact tab ▸ .escape rfl
  · exact back ▸ .escape rfl
  · exact form ▸ .escape rfl
  · exact .code (code?_twoHexDigits (by omega))
  · rw [not_or] at marked
    exact .plain marked.1 marked.2 (by omega)

theorem spellsString_escaped (value : Text) : SpellsString (value.flatMap escapeChar) value := by
  induction value with
  | nil => exact .nil
  | cons c rest ih =>
    rw [List.flatMap_cons]
    exact .cons (spellsChar_escapeChar c) ih

theorem spells_renderText (value : Text) : Spells (renderText value) (.text value) :=
  .text (spellsString_escaped value)

example : renderText "\"\\\n\x01é".toList = "\"\\\"\\\\\\n\\u0001é\"".toList := by
  rfl

/-! ## Numbers -/

theorem isDigits_ofNat (number : Nat) : IsDigits (Text.ofNat number) :=
  ⟨Nat.toDigits_ne_nil, fun _ member => Nat.isDigit_of_mem_toDigits (by omega) (by omega) member⟩

theorem wholeNumber_ofNat (number : Nat) : wholeNumber (Text.ofNat number) = number :=
  Nat.ofDigitChars_toDigits (by omega) (by omega)

/-- Only zero is written with a zero in front. -/
theorem ofNat_eq_zero {number : Nat} (zero : (Text.ofNat number).head? = some '0') :
    Text.ofNat number = ['0'] := by
  induction number using Nat.strong_induction_on with
  | _ number ih =>
    by_cases small : number < 10
    · rw [Text.ofNat, Nat.toDigits_of_lt_base small] at zero ⊢
      rw [Option.some.inj zero]
    · have longer : Text.ofNat number =
          Text.ofNat (number / 10) ++ [Nat.digitChar (number % 10)] :=
        Nat.toDigits_of_base_le (by omega) (by omega)
      obtain ⟨c, more, split⟩ := List.exists_cons_of_ne_nil (isDigits_ofNat (number / 10)).1
      rw [longer, split] at zero
      have front : (Text.ofNat (number / 10)).head? = some '0' := by rw [split]; exact zero
      have shorter := congrArg wholeNumber (ih (number / 10) (by omega) front)
      rw [wholeNumber_ofNat] at shorter
      have none : number / 10 = 0 := shorter
      omega

theorem spells_ofNat (number : Nat) : Spells (Text.ofNat number) (.number number) := by
  have spelled := SpellsNumber.intro false (isDigits_ofNat number) ofNat_eq_zero .absent .absent
  have value : decimal false (Text.ofNat number ++ []) (0 - ([] : Text).length) = number := by
    simp [decimal, wholeNumber_ofNat]
  rw [value] at spelled
  exact .number (by simpa using spelled)

/-! ## Items -/

/-- Gaps around an item make no difference. -/
def TakesGaps (Item : Text → α → Prop) : Prop :=
  ∀ ⦃front text back value⦄, Gap front → Item text value → Gap back →
    Item (front ++ text ++ back) value

theorem Padded.takesGaps {Item : Text → α → Prop} : TakesGaps (Padded Item) := by
  intro front text back value before padded behind
  obtain ⟨inner, item, after⟩ := padded
  simpa using Padded.intro (before.append inner) item (after.append behind)

theorem Member.takesGaps {Item : Text → α → Prop} : TakesGaps (Member Item) := by
  intro front text back value before member behind
  obtain ⟨inner, named, between, item⟩ := member
  have last := Padded.takesGaps gap_nil item behind
  simpa using Member.intro (before.append inner) named between last

theorem gap_line (indent : Nat) : Gap ('\n' :: List.replicate indent ' ') := by
  intro c member
  rcases List.mem_cons.mp member with rfl | member
  · rfl
  · rw [List.eq_of_mem_replicate member]
    rfl

variable {Item : Text → α → Prop}

/-- Items on lines of their own, a comma in front of each line but the first. -/
theorem separated_lines (takes : TakesGaps Item) {line last : Text} (lineGap : Gap line)
    (lastGap : Gap last) (item : Item first value) (items : List.Forall₂ Item rest values) :
    Separated Item (line ++ first ++ rest.flatMap (fun item => ',' :: (line ++ item)) ++ last)
      (value :: values) := by
  induction items generalizing first value with
  | nil => simpa using Separated.last (takes lineGap item lastGap)
  | cons next items ih =>
    have here := takes lineGap item gap_nil
    simpa using Separated.cons here (ih next)

theorem bracketed_renderItems (takes : TakesGaps Item) (items : List.Forall₂ Item texts values)
    (opening closing : Char) (indent : Nat) :
    Bracketed opening closing Item (renderItems opening closing indent texts) values := by
  cases items with
  | nil => exact .empty gap_nil
  | cons item items =>
    have separated := separated_lines takes (gap_line (indent + 2)) (gap_line indent) item items
    have bracketed : Bracketed opening closing Item _ _ := .items separated
    simpa [renderItems] using bracketed

/-! ## Objects -/

/-- What the value of a field says. -/
def Value.document : Value → Document
  | text value => .text value
  | number value => .number value
  | flag value => .flag value
  | texts values => .list (values.map .text)

theorem padded_of_spells (spelled : Spells body document) : Padded Spells body document := by
  simpa using Padded.intro gap_nil spelled gap_nil

theorem Value.spells_render (value : Value) : Spells value.render value.document := by
  cases value with
  | text value => exact spells_renderText value
  | number value => exact spells_ofNat value
  | flag value =>
    apply Spells.word
    cases value <;> simp [words, Value.render, Value.document]
  | texts values =>
    apply Spells.list
    apply bracketed_renderItems Padded.takesGaps
    rw [List.forall₂_map_left_iff, List.forall₂_map_right_iff, List.forall₂_same]
    exact fun value _ => padded_of_spells (spells_renderText value)

/-- A name, a colon, a blank and a value. -/
theorem member_field (name : Text) (value : Value) :
    Member Spells (renderText name ++ ": ".toList ++ value.render) (name, value.document) := by
  have blank : Gap [' '] := by simp [Gap, isGap]
  have said := Padded.intro blank value.spells_render gap_nil
  have member := Member.intro gap_nil (spellsString_escaped name) gap_nil said
  simpa [renderText] using member

/-- An object is rendered as a JSON text that says its fields, in their order and no others. -/
theorem spells_renderObject (fields : List (Text × Value)) :
    Spells (renderObject fields)
      (.object (fields.map fun (name, value) => (name, value.document))) := by
  apply Spells.object
  apply bracketed_renderItems Member.takesGaps
  rw [List.forall₂_map_left_iff, List.forall₂_map_right_iff, List.forall₂_same]
  exact fun (name, value) _ => member_field name value

end ReleasePicker.Json
