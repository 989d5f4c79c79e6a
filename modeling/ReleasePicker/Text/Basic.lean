/-!
Text is a list of Unicode scalar values and raw content is a list of bytes, so that every rule of
the library is a recursion over a list and its laws are inductions.
-/
namespace ReleasePicker

/-- Text as the rules of the library see it: one Unicode scalar value after another. -/
abbrev Text := List Char

/-- Raw content and raw names; files and paths may hold any bytes. -/
abbrev Bytes := List UInt8

/-- How many bytes the text takes in UTF-8. Every offset of the library counts these. -/
def Text.byteLength (text : Text) : Nat :=
  text.foldr (fun c length => c.utf8Size + length) 0

@[simp] theorem Text.byteLength_nil : Text.byteLength [] = 0 := rfl

@[simp] theorem Text.byteLength_cons (c : Char) (text : Text) :
    Text.byteLength (c :: text) = c.utf8Size + Text.byteLength text := rfl

@[simp] theorem Text.byteLength_append (left right : Text) :
    Text.byteLength (left ++ right) = Text.byteLength left + Text.byteLength right := by
  induction left with
  | nil => simp
  | cons c rest ih => simp [ih, Nat.add_assoc]

/-- Whether a text comes before another in the order of code points, or is the same text. -/
def Text.comesBefore : Text → Text → Bool
  | [], _ => true
  | _ :: _, [] => false
  | c :: rest, d :: more => c.toNat < d.toNat || c == d && comesBefore rest more

/-- The parts of a list between separators: one more part than there are separators, so nothing
but the separators is lost. -/
def parts [DecidableEq α] (separator : α) : List α → List (List α)
  | [] => [[]]
  | item :: rest =>
    if item = separator then [] :: parts separator rest
    else match parts separator rest with
      | [] => [[item]]
      | part :: more => (item :: part) :: more

/-- A number in decimal digits. -/
def Text.ofNat (number : Nat) : Text :=
  Nat.toDigits 10 number

/-! ## Space -/

/-- First and last code points of the runs of characters that have the property White_Space. -/
def Text.spaceRanges : List (Nat × Nat) :=
  [(0x9, 0xD), (0x20, 0x20), (0x85, 0x85), (0xA0, 0xA0), (0x1680, 0x1680), (0x2000, 0x200A),
   (0x2028, 0x2029), (0x202F, 0x202F), (0x205F, 0x205F), (0x3000, 0x3000)]

/-- Whether the character has the property White_Space. -/
def Text.isSpace (c : Char) : Bool :=
  spaceRanges.any fun (first, last) => first ≤ c.toNat && c.toNat ≤ last

/-- Whether the character may stand in an indentation: a space or a tab. -/
def Text.isIndent (c : Char) : Bool :=
  c == ' ' || c == '\t'

/-- The text without the spaces at its end. -/
def Text.trimEnd (text : Text) : Text :=
  (text.reverse.dropWhile isSpace).reverse

/-- The text without the spaces at either end. -/
def Text.trim (text : Text) : Text :=
  trimEnd (text.dropWhile isSpace)

end ReleasePicker
