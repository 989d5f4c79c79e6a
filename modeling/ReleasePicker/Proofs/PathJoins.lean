import ReleasePicker.Proofs.Files.Paths
import ReleasePicker.Proofs.SlashPaths

/-!
What a path names after any number of joins. A path is looked at through its components, and a join
puts the components of the segment behind those of the path: dropping steps into the current
directory drops no component, and a slash stands between the two texts wherever a component could
grow into its neighbour. The start of the text is out of reach of later joins, unless the path is
the current directory.
-/
namespace ReleasePicker.SlashPath

open Utf8 (decodeLossy)

/-! ## Components -/

/-- What stands between the slashes of a path. Repeated slashes and steps into the current
directory name nothing. -/
def components (text : Text) : List Text :=
  (parts '/' text).filter fun part => part != [] && part != ['.']

/-- A slash keeps the components on its two sides apart. -/
theorem components_slash (front rest : Text) :
    components (front ++ '/' :: rest) = components front ++ components rest := by
  rw [components, parts_append_separator, List.filter_append]
  rfl

theorem components_current {text : Text} (current : text = [] ∨ text = ['.']) :
    components text = [] := by
  rcases current with rfl | rfl <;> rfl

theorem components_dropDotSlash (text : Text) :
    components (dropDotSlash text) = components text := by
  fun_induction dropDotSlash text with
  | case1 rest ih =>
    have step : components ('.' :: '/' :: rest) = components ['.'] ++ components rest :=
      components_slash ['.'] rest
    rw [ih, step, components_current (.inr rfl), List.nil_append]
  | case2 => rfl

theorem components_joinText (base relative : Text) :
    components (joinText base relative) = components base ++ components relative := by
  unfold joinText
  split
  · rename_i current
    rw [components_current current, List.nil_append]
  · split
    · -- the slash that keeps the two apart is the last character of the base
      rename_i slashed
      obtain ⟨front, rfl⟩ := List.getLast?_eq_some_iff.mp slashed
      rw [List.append_assoc, List.singleton_append, components_slash, components_slash]
      simp [components_current (.inl rfl)]
    · exact components_slash base relative

/-- One join puts the components of the segment behind those of the path. -/
theorem components_join (path : SlashPath) (segment : Text) :
    components (path.join segment).text =
      components path.text ++ components (slashed segment) := by
  rw [text_join, components_joinText, components_dropDotSlash]

theorem components_foldl_join (path : SlashPath) (segments : List Text) :
    components (segments.foldl join path).text =
      components path.text ++ segments.flatMap fun segment => components (slashed segment) := by
  induction segments generalizing path with
  | nil => simp
  | cons segment segments ih =>
    rw [List.foldl_cons, ih, components_join, List.flatMap_cons, List.append_assoc]

/-! ## The start of the text -/

/-- Nothing can be joined to another path that makes it the current directory. -/
theorem joinText_other {base : Text} (other : ¬ (base = [] ∨ base = ['.'])) (relative : Text) :
    ¬ (joinText base relative = [] ∨ joinText base relative = ['.']) := by
  rw [joinText, if_neg other]
  split
  · rename_i slashed
    obtain ⟨front, rfl⟩ := List.getLast?_eq_some_iff.mp slashed
    cases front <;> simp
  · cases base <;> simp

/-- Joins leave the first character of a path alone that is not the current directory. -/
theorem head?_foldl_join {path : SlashPath} (other : ¬ (path.text = [] ∨ path.text = ['.']))
    (segments : List Text) : (segments.foldl join path).text.head? = path.text.head? := by
  induction segments generalizing path with
  | nil => rfl
  | cons segment segments ih =>
    have next : ¬ ((path.join segment).text = [] ∨ (path.join segment).text = ['.']) := by
      rw [text_join]
      exact joinText_other other _
    rw [List.foldl_cons, ih next, text_join, head?_joinText other]

/-! ## Joins -/

/-- **What joins make of a path.** However a path is put together from a start and segments, it
holds slashes only, and its components are those of the start followed by those of each segment,
backslashes read as slashes everywhere. A path on the way that is not the current directory stays
absolute or stays relative. -/
theorem joins_concatenate (start : Bytes) (segments : List Text) :
    '\\' ∉ (segments.foldl join (ofBytes start)).text ∧
      components (segments.foldl join (ofBytes start)).text =
        components (slashed (decodeLossy start)) ++
          segments.flatMap (fun segment => components (slashed segment)) ∧
      ∀ further, (segments.foldl join (ofBytes start)).text ≠ [] →
        (segments.foldl join (ofBytes start)).text ≠ ['.'] →
        (((segments ++ further).foldl join (ofBytes start)).text.head? = some '/' ↔
          (segments.foldl join (ofBytes start)).text.head? = some '/') := by
  refine ⟨SlashPath.clean _, components_foldl_join _ segments, ?_⟩
  intro further named notDot
  rw [List.foldl_append, head?_foldl_join (not_or.mpr ⟨named, notDot⟩)]

/-- A start that is not UTF-8, and segments with idle steps and slashes of both kinds. -/
theorem joins_concatenate_broken :
    let path := [".\\/b".toList, "./.".toList].foldl join (ofBytes [0x5C, 0x61, 0xFF, 0x5C])
    path.text = "/a\uFFFD//b/.".toList ∧
      components path.text = ["a\uFFFD".toList, "b".toList] ∧
      (path.join "..\\x".toList).text.head? = some '/' := by
  intro path
  have joined : path.text = "/a\uFFFD//b/.".toList := by
    cbv
  obtain ⟨-, named, kept⟩ :=
    joins_concatenate [0x5C, 0x61, 0xFF, 0x5C] [".\\/b".toList, "./.".toList]
  have absolute := kept ["..\\x".toList]
    (by rw [joined]; decide) (by rw [joined]; decide)
  refine ⟨joined, named.trans ?_, absolute.mpr (by rw [joined]; rfl)⟩
  cbv

end ReleasePicker.SlashPath
