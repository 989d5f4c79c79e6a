import Mathlib
import ReleasePicker.Path
import ReleasePicker.Proofs.Utf8

/-!
When the path of a file that is named relative to a root starts at the root of the file system. A
name with a leading slash stands for itself, and behind any other root a name is relative to it. But
where the root is the current directory, the name alone is left, and after the steps into the
current directory that it starts with there can be a slash (`head?_dropDotSlash_iff`). So a relative
name such as `.//x` becomes an absolute path.
-/
namespace ReleasePicker.SlashPath

open Utf8 (decodeLossy encode)

/-! ## Slashes -/

theorem dropDotSlash_suffix (text : Text) : dropDotSlash text <:+ text := by
  fun_induction dropDotSlash text with
  | case1 rest ih => exact ih.trans (List.suffix_append ['.', '/'] rest)
  | case2 => exact List.suffix_rfl

/-- A path and a segment are joined as they are, once the segment has slashes only. -/
theorem text_join (path : SlashPath) (segment : Text) :
    (path.join segment).text = joinText path.text (dropDotSlash (slashed segment)) := by
  have segmentClean : '\\' ∉ dropDotSlash (slashed segment) := fun member =>
    not_mem_slashed segment ((dropDotSlash_suffix _).subset member)
  refine slashed_of_not_mem ?_
  unfold joinText
  split
  · exact segmentClean
  · split <;> simp [path.clean, segmentClean]

/-! ## Leading slashes -/

/-- The steps into the current directory that a text starts with, however many there are. -/
def dotSlashes (steps : Nat) : Text :=
  (List.replicate steps ['.', '/']).flatten

theorem dropDotSlash_dotSlashes (steps : Nat) (rest : Text) :
    dropDotSlash (dotSlashes steps ++ rest) = dropDotSlash rest := by
  induction steps with
  | zero => rfl
  | succ steps ih => simpa [dotSlashes, List.replicate_succ, dropDotSlash] using ih

/-- Nothing but steps into the current directory is dropped. -/
theorem exists_dotSlashes (text : Text) :
    ∃ steps, text = dotSlashes steps ++ dropDotSlash text := by
  fun_induction dropDotSlash text with
  | case1 rest ih =>
    obtain ⟨steps, whole⟩ := ih
    refine ⟨steps + 1, ?_⟩
    rw [dotSlashes, List.replicate_succ, List.flatten_cons, List.append_assoc]
    exact congrArg ('.' :: '/' :: ·) whole
  | case2 => exact ⟨0, rfl⟩

/-- A slash is left in front exactly if one follows the steps into the current directory. -/
theorem head?_dropDotSlash_iff {text : Text} :
    (dropDotSlash text).head? = some '/' ↔
      ∃ steps rest, text = dotSlashes steps ++ '/' :: rest := by
  constructor
  · intro leading
    obtain ⟨steps, whole⟩ := exists_dotSlashes text
    obtain ⟨rest, left⟩ := List.head?_eq_some_iff.mp leading
    exact ⟨steps, rest, left ▸ whole⟩
  · rintro ⟨steps, rest, rfl⟩
    rw [dropDotSlash_dotSlashes]
    rfl

/-- What is joined to a path starts as the path does, unless the path names the current
directory. -/
theorem head?_joinText {base : Text} (other : ¬ (base = [] ∨ base = ['.'])) (relative : Text) :
    (joinText base relative).head? = base.head? := by
  obtain ⟨c, rest, rfl⟩ := List.exists_cons_of_ne_nil (not_or.mp other).1
  rw [joinText, if_neg other]
  split <;> rfl

theorem head?_ofBytes_of_isAbsolute {path : Bytes} (absolute : isAbsolute path = true) :
    (ofBytes path).text.head? = some '/' := by
  obtain ⟨rest, rfl⟩ := List.head?_eq_some_iff.mp (by simpa [isAbsolute] using absolute)
  have first := Utf8.decodeLossy_cons 0x2F rest
  rw [ofBytes, first]
  rfl

/-! ## Resolving -/

/-- **When a resolved path is absolute.** The path of a file starts with a slash if the name of the
file does or the root does, and besides only where the root names the current directory and the name
has a slash behind steps into the current directory. -/
theorem head?_resolve_iff (root relative : Bytes) :
    (resolve root relative).text.head? = some '/' ↔
      isAbsolute relative = true ∨ (ofBytes root).text.head? = some '/' ∨
        ((ofBytes root).text = [] ∨ (ofBytes root).text = ['.']) ∧
          ∃ steps rest, slashed (decodeLossy relative) = dotSlashes steps ++ '/' :: rest := by
  by_cases absolute : isAbsolute relative = true
  · rw [resolve, if_pos absolute]
    simp [absolute, head?_ofBytes_of_isAbsolute absolute]
  · rw [resolve, if_neg absolute, text_join, ← head?_dropDotSlash_iff]
    by_cases current : (ofBytes root).text = [] ∨ (ofBytes root).text = ['.']
    · have unslashed : (ofBytes root).text.head? ≠ some '/' := by
        rcases current with none | dot
        · simp [none]
        · simp [dot]
      simp [joinText, absolute, current, unslashed]
    · simp [head?_joinText current, absolute, current]

/-- A relative name does not stay relative in the current directory. -/
theorem not_resolve_keeps_relative :
    ¬ ∀ root relative : Text, '\\' ∉ root → '\\' ∉ relative →
      ((resolve (encode root) (encode relative)).text.head? = some '/' ↔
        relative.head? = some '/' ∨ root.head? = some '/') := by
  intro keeps
  have resolved : (resolve (encode ['.']) (encode ".//x".toList)).text = "/x".toList := by
    cbv
  have same := keeps ['.'] ".//x".toList (by decide) (by decide)
  rw [resolved] at same
  revert same
  decide

end ReleasePicker.SlashPath
