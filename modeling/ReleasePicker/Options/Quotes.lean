import ReleasePicker.Text.Lines

/-!
Single-quoted values. Inside the quotes a quote is written twice, so the value ends at the first
quote that is not one of a pair. Doubling the quotes of a value and halving them again gives the
value back (`halve_double`), and the closing quote is found wherever it was put
(`closeQuote_double`).
-/
namespace ReleasePicker.Options

open Text (breaksLine)

/-- The value with every quote written twice. -/
def double : Text → Text
  | [] => []
  | c :: rest => if c = '\'' then '\'' :: '\'' :: double rest else c :: double rest

/-- The value with every adjacent pair of quotes written once, pairs taken from the left. -/
def halve : Text → Text
  | '\'' :: '\'' :: rest => '\'' :: halve rest
  | c :: rest => c :: halve rest
  | [] => []

/-- What follows an opening quote, cut at the closing one: the quoted value, its quotes still
doubled, and what stands after the closing quote. There is no closing quote beyond a line break. -/
def closeQuote : Text → Option (Text × Text)
  | '\'' :: '\'' :: rest =>
    (closeQuote rest).map fun (value, after) => ('\'' :: '\'' :: value, after)
  | '\'' :: after => some ([], after)
  | c :: rest =>
    if breaksLine c then none else (closeQuote rest).map fun (value, after) => (c :: value, after)
  | [] => none

theorem halve_double (value : Text) : halve (double value) = value := by
  induction value with
  | nil => rfl
  | cons c rest ih =>
    simp only [double]
    split
    · rename_i quote
      simp [halve, ih, quote]
    · rename_i plain
      rw [halve, ih]
      intro _ same
      cases same
      exact absurd rfl plain

/-- A doubled value followed by a quote that is not doubled is cut exactly there. -/
theorem closeQuote_double (value after : Text) (oneLine : ∀ c ∈ value, breaksLine c = false)
    (single : after.head? ≠ some '\'') :
    closeQuote (double value ++ '\'' :: after) = some (double value, after) := by
  induction value with
  | nil =>
    simp only [double, List.nil_append]
    rw [closeQuote]
    intro rest same
    exact single (by simp [same])
  | cons c rest ih =>
    have ih := ih fun d member => oneLine d (List.mem_cons_of_mem _ member)
    simp only [double]
    split
    · simp [closeQuote, ih]
    · rename_i plain
      simp only [List.cons_append]
      rw [closeQuote]
      · simp [oneLine c (by simp), ih]
      · intro _ same
        exact absurd same plain
      · exact plain

end ReleasePicker.Options
