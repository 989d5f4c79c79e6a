import ReleasePicker.Files.WellFormed
import Mathlib.Data.List.Induction

/-!
What single changes do to a tree, seen through what stands where. A well-formed tree has a directory
above everything that stands somewhere, and so nothing below a place where nothing stands.
-/
namespace ReleasePicker.Files.FileTree

/-! ## Looking up -/

theorem entry?_of_ne_nil {location : Location} (tree : FileTree) (named : location ≠ []) :
    tree.entry? location = tree.entries.lookup location :=
  if_neg named

theorem mem_entries_of_found {tree : FileTree} {location : Location} {entry : Entry}
    (named : location ≠ []) (found : tree.entry? location = some entry) :
    (location, entry) ∈ tree.entries := by
  rw [entry?_of_ne_nil tree named, List.lookup_eq_some_iff] at found
  obtain ⟨before, after, split, -⟩ := found
  simp [split]

theorem holdsDirectory_iff {tree : FileTree} {location : Location} :
    tree.holdsDirectory location = true ↔
      ∃ mode, tree.entry? location = some (.directory mode) := by
  unfold holdsDirectory
  cases tree.entry? location with
  | none => simp
  | some entry => cases entry <;> simp

/-! ## Putting -/

@[simp] theorem caller_put (tree : FileTree) (location : Location) (entry : Entry) :
    (tree.put location entry).caller = tree.caller := by
  unfold put
  split <;> rfl

@[simp] theorem workingDirectory_put (tree : FileTree) (location : Location) (entry : Entry) :
    (tree.put location entry).workingDirectory = tree.workingDirectory := by
  unfold put
  split <;> rfl

@[simp] theorem mask_put (tree : FileTree) (location : Location) (entry : Entry) :
    (tree.put location entry).mask = tree.mask := by
  unfold put
  split <;> rfl

private theorem lookup_cons_eq (first : Location × Entry) (rest : List (Location × Entry))
    (place : Location) :
    (first :: rest).lookup place =
      if place = first.1 then some first.2 else rest.lookup place := by
  rw [List.lookup_cons]
  by_cases same : place = first.1
  · rw [if_pos same, beq_iff_eq.mpr same]
  · rw [if_neg same, beq_eq_false_iff_ne.mpr same]

private theorem lookup_replace (entries : List (Location × Entry)) (location : Location)
    (entry : Entry) (place : Location) :
    (entries.map fun (other, old) =>
        if other = location then (other, entry) else (other, old)).lookup place =
      if place = location then (entries.lookup location).map fun _ => entry
      else entries.lookup place := by
  induction entries with
  | nil => simp
  | cons first rest ih =>
    obtain ⟨other, old⟩ := first
    rw [List.map_cons, lookup_cons_eq, ih, lookup_cons_eq, lookup_cons_eq]
    by_cases here : other = location
    · subst here
      by_cases asked : place = other <;> simp [asked]
    · by_cases asked : place = location
      · subst asked
        simp [here, Ne.symm here]
      · simp [here, asked]

theorem lookup_put (tree : FileTree) (location : Location) (entry : Entry) (place : Location) :
    (tree.put location entry).entries.lookup place =
      if place = location then some entry else tree.entries.lookup place := by
  unfold put
  split
  · rename_i present
    obtain ⟨old, found⟩ := Option.isSome_iff_exists.mp present
    simp only [lookup_replace, found, Option.map_some]
  · rename_i absent
    have none : tree.entries.lookup location = none := Option.not_isSome_iff_eq_none.mp absent
    rw [List.lookup_append, lookup_cons_eq]
    by_cases asked : place = location
    · simp [asked, none]
    · simp [asked]

theorem entry?_put {location : Location} (tree : FileTree) (named : location ≠ []) (entry : Entry)
    (place : Location) :
    FileTree.entry? (tree.put location entry) place =
      if place = location then some entry else tree.entry? place := by
  by_cases root : place = []
  · rw [if_neg (by rw [root]; exact Ne.symm named), root]
    rfl
  · rw [entry?_of_ne_nil _ root, entry?_of_ne_nil _ root, lookup_put]

/-- Where nothing stood, a new entry comes last. -/
theorem put_of_absent {tree : FileTree} {location : Location}
    (absent : tree.entries.lookup location = none) (entry : Entry) :
    tree.put location entry = { tree with entries := tree.entries ++ [(location, entry)] } := by
  simp [put, absent]

/-- Where something stood, a new entry takes its place. -/
theorem places_put {tree : FileTree} {location : Location} (named : location ≠ [])
    (present : tree.entry? location = some old) (entry : Entry) :
    (tree.put location entry).entries.map Prod.fst = tree.entries.map Prod.fst := by
  rw [entry?_of_ne_nil tree named] at present
  simp only [put, present, Option.isSome_some, if_true, List.map_map]
  apply List.map_congr_left
  rintro ⟨place, old⟩ _
  by_cases here : place = location <;> simp [here]

/-! ## New numbers -/

/-- One more than the number of a file, if it is one. -/
private def past (place : Location × Entry) : Nat :=
  (place.2.number?.map (· + 1)).getD 0

private theorem foldl_past (entries : List (Location × Entry)) (start : Nat) :
    start ≤ entries.foldl (fun fresh place => max fresh (past place)) start ∧
      ∀ place ∈ entries,
        past place ≤ entries.foldl (fun fresh place => max fresh (past place)) start := by
  induction entries generalizing start with
  | nil => simp
  | cons first rest ih =>
    obtain ⟨grown, below⟩ := ih (max start (past first))
    rw [List.foldl_cons]
    refine ⟨by omega, ?_⟩
    intro place member
    rcases List.mem_cons.mp member with rfl | member
    · omega
    · exact below place member

/-- No file has the number of a new one. -/
theorem number?_ne_freshNumber {tree : FileTree} {place : Location × Entry}
    (member : place ∈ tree.entries) : place.2.number? ≠ some tree.freshNumber := by
  intro known
  have bound : past place ≤ tree.freshNumber := (foldl_past tree.entries 0).2 place member
  rw [past, known, Option.map_some, Option.getD_some] at bound
  omega

theorem number?_ne_of_found {tree : FileTree} {place : Location} {entry : Entry}
    (found : tree.entry? place = some entry) : entry.number? ≠ some tree.freshNumber := by
  by_cases root : place = []
  · subst root
    cases found
    simp [Entry.number?]
  · exact number?_ne_freshNumber (mem_entries_of_found root found)

/-- A change to a file that has just been made changes this one name. -/
theorem changeFile_put {tree : FileTree} {location : Location} {entry : Entry}
    (absent : tree.entries.lookup location = none)
    (fresh : entry.number? = some tree.freshNumber) (change : Entry → Entry) :
    (tree.put location entry).changeFile tree.freshNumber change =
      tree.put location (change entry) := by
  have others : (tree.entries.map fun (place, old) =>
      if old.number? = some tree.freshNumber then (place, change old) else (place, old)) =
        tree.entries := by
    conv_rhs => rw [← List.map_id tree.entries]
    exact List.map_congr_left fun place member => if_neg (number?_ne_freshNumber member)
  rw [put_of_absent absent, put_of_absent absent, changeFile]
  simp only [List.map_append, others, List.map_cons, List.map_nil, fresh, if_true]

private theorem lookup_changed (entries : List (Location × Entry)) (number : Nat)
    (change : Entry → Entry) (location : Location) :
    (entries.map fun (place, entry) =>
        if entry.number? = some number then (place, change entry) else (place, entry)).lookup
          location =
      (entries.lookup location).map fun entry =>
        if entry.number? = some number then change entry else entry := by
  induction entries with
  | nil => rfl
  | cons first rest ih =>
    obtain ⟨place, entry⟩ := first
    rw [List.map_cons, lookup_cons_eq, lookup_cons_eq, ih]
    by_cases changed : entry.number? = some number
    · by_cases here : location = place <;> simp [changed, here]
    · by_cases here : location = place <;> simp [changed, here]

theorem entry?_changeFile (tree : FileTree) (number : Nat) (change : Entry → Entry)
    (location : Location) :
    FileTree.entry? (tree.changeFile number change) location =
      (tree.entry? location).map fun entry =>
        if entry.number? = some number then change entry else entry := by
  by_cases root : location = []
  · subst root
    rfl
  · rw [entry?_of_ne_nil _ root, entry?_of_ne_nil _ root]
    exact lookup_changed tree.entries number change location

/-! ## Taking away -/

theorem lookup_eq_none {tree : FileTree} {location : Location}
    (absent : ∀ place ∈ tree.entries, ¬ location <+: place.1) :
    tree.entries.lookup location = none := by
  rw [List.lookup_eq_none_iff]
  intro place member
  exact bne_iff_ne.mpr fun same => absent place member (same ▸ List.prefix_refl _)

/-- What was put where nothing stood at or below can be taken away again. -/
theorem erase_put {tree : FileTree} {location : Location}
    (absent : ∀ place ∈ tree.entries, ¬ location <+: place.1) (entry : Entry) :
    (tree.put location entry).erase location = tree := by
  have kept : (tree.entries.filter fun place => !location.isPrefixOf place.1) = tree.entries := by
    rw [List.filter_eq_self]
    intro place member
    simpa [Bool.eq_false_iff] using absent place member
  rw [put_of_absent (lookup_eq_none absent), erase]
  simp [kept]

private theorem lookup_filter (entries : List (Location × Entry)) (keep : Location → Bool)
    {location : Location} (kept : keep location = true) :
    (entries.filter fun place => keep place.1).lookup location = entries.lookup location := by
  induction entries with
  | nil => rfl
  | cons first rest ih =>
    rw [List.filter_cons]
    split
    · rw [lookup_cons_eq, lookup_cons_eq, ih]
    · rename_i dropped
      have other : location ≠ first.1 := fun same => dropped (same ▸ kept)
      rw [ih, lookup_cons_eq, if_neg other]

private theorem lookup_dropped (entries : List (Location × Entry)) (keep : Location → Bool)
    {location : Location} (dropped : keep location = false) :
    (entries.filter fun place => keep place.1).lookup location = none := by
  rw [List.lookup_eq_none_iff]
  intro place member
  apply bne_iff_ne.mpr
  rintro rfl
  have kept := (List.mem_filter.mp member).2
  rw [dropped] at kept
  cases kept

theorem entry?_erase {location : Location} (tree : FileTree) (named : location ≠ [])
    (place : Location) :
    FileTree.entry? (tree.erase location) place =
      if location <+: place then none else tree.entry? place := by
  by_cases root : place = []
  · rw [root, if_neg (by simpa using named)]
    rfl
  · rw [entry?_of_ne_nil _ root, entry?_of_ne_nil _ root]
    by_cases below : location <+: place
    · rw [if_pos below]
      exact lookup_dropped tree.entries (fun place => !location.isPrefixOf place)
        (by simpa using below)
    · rw [if_neg below]
      exact lookup_filter tree.entries (fun place => !location.isPrefixOf place)
        (by simpa [Bool.eq_false_iff] using below)

/-- Putting and taking away at different places do not meet. -/
theorem erase_put_comm {tree : FileTree} {location other : Location} (apart : ¬ other <+: location)
    (entry : Entry) :
    (tree.put location entry).erase other = (tree.erase other).put location entry := by
  have stays : other.isPrefixOf location = false := by
    simpa [Bool.eq_false_iff] using apart
  have sought : (tree.erase other).entries.lookup location = tree.entries.lookup location :=
    lookup_filter tree.entries (fun place => !other.isPrefixOf place) (by simp [stays])
  unfold put
  rw [sought]
  split
  · rw [erase, erase, List.filter_map]
    congr 2
    apply List.filter_congr
    rintro ⟨place, old⟩ _
    by_cases here : place = location <;> simp [here]
  · simp [erase, stays]

/-! ## Well-formed trees -/

theorem WellFormed.isName {tree : FileTree} (wellFormed : tree.WellFormed) {location : Location}
    (found : tree.entry? location = some entry) : ∀ name ∈ location, IsName name := by
  by_cases root : location = []
  · simp [root]
  · exact (wellFormed.named _ (mem_entries_of_found root found)).2

/-- Above whatever stands somewhere there are directories. -/
theorem WellFormed.above {tree : FileTree} (wellFormed : tree.WellFormed) {location : Location}
    (present : tree.entry? location ≠ none) {place : Location} (above : place <+: location)
    (other : place ≠ location) : tree.holdsDirectory place := by
  induction location using List.reverseRecOn with
  | nil => exact absurd (List.prefix_nil.mp above) other
  | append_singleton init name ih =>
    obtain ⟨entry, found⟩ := Option.ne_none_iff_exists'.mp present
    have housed := wellFormed.housed _ (mem_entries_of_found (by simp) found)
    rw [List.dropLast_concat] at housed
    by_cases here : place = init
    · exact here ▸ housed
    · obtain ⟨mode, directory⟩ := holdsDirectory_iff.mp housed
      have shorter : place <+: init := by
        rcases List.prefix_concat_iff.mp above with same | shorter
        · exact absurd same other
        · exact shorter
      exact ih (by simp [directory]) shorter here

/-- Where nothing stands, nothing stands below. -/
theorem WellFormed.below {tree : FileTree} (wellFormed : tree.WellFormed) {location : Location}
    (absent : tree.entry? location = none) : ∀ place ∈ tree.entries, ¬ location <+: place.1 := by
  intro place member below
  have named := (wellFormed.named place member).1
  have present : tree.entry? place.1 ≠ none := by
    rw [entry?_of_ne_nil tree named, ne_eq, List.lookup_eq_none_iff]
    exact fun none => by simpa using none place member
  have other : location ≠ place.1 := by
    rintro rfl
    exact present absent
  obtain ⟨mode, directory⟩ := holdsDirectory_iff.mp (wellFormed.above present below other)
  rw [absent] at directory
  cases directory

end ReleasePicker.Files.FileTree
