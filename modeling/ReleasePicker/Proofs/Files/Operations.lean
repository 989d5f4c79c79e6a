import ReleasePicker.Proofs.Files.Slots

/-!
What a single operation did if it succeeded, and why it cannot do anything if it fails.
-/
namespace ReleasePicker.Files.FileTree

variable {tree after : FileTree} {path source target : Bytes}

theorem bind_eq_ok {action : Except ε α} {next : α → Except ε β} {result : β} :
    action >>= next = .ok result ↔ ∃ value, action = .ok value ∧ next value = .ok result := by
  cases action with
  | error _ => simp [bind, Except.bind]
  | ok value => simp [bind, Except.bind]

theorem slotLocation_eq_ok_iff {slot : Slot} {location : Location} :
    slotLocation slot = .ok location ↔
      ∃ name, slot.name = some name ∧ name.length ≤ longestName ∧
        location = slot.directory ++ [name] := by
  unfold slotLocation
  cases slot.name with
  | none => simp
  | some name =>
    by_cases long : longestName < name.length
    · simp [long, Nat.not_le.mpr long]
    · simp [long, Nat.not_lt.mp long, eq_comm]

/-- A path with nothing at its end still has nothing there after a file was put under another
name. -/
theorem Vacant.put (vacant : tree.Vacant path) (unslashed : endsInSlash path = false)
    (ends : pathNames path = front ++ [name]) (number : entry.number?.isSome)
    (single : tree.holdsDirectory (place ++ [other]) = false) (apart : other ≠ name) :
    (tree.put (place ++ [other]) entry).Vacant path := by
  rintro ⟨parent, last, slashed⟩ location found located
  obtain ⟨last, rfl, short, rfl⟩ := slotLocation_eq_ok_iff.mp located
  cases (slashed_of_slot found).trans unslashed
  have names := names_of_put (by simp) number single (slot_eq_ok_iff.mp found)
  have same : last = name := by
    have ended := names.ends
    rw [ends] at ended
    exact (List.append_singleton_inj.mp ended).2.symm
  subst same
  have away : parent ++ [last] ≠ place ++ [other] := by
    intro same
    exact apart (List.append_singleton_inj.mp same).2.symm
  rw [entry?_put tree (by simp), if_neg away]
  exact vacant _ _ (slot_eq_ok_iff.mpr names) located

theorem vacant_of_absent {slot : Slot} (found : tree.slot path = .ok slot)
    (located : slotLocation slot = .ok location) (absent : tree.entry? location = none) :
    tree.Vacant path := by
  intro other place found' located'
  cases found.symm.trans found'
  cases located.symm.trans located'
  exact absent

/-! ## Making a file -/

theorem createFile_eq_ok (unslashed : endsInSlash path = false)
    (made : tree.createFile path = .ok after) :
    ∃ location, tree.locateNew path = .ok location ∧
      ((tree.entry? location = none ∧ tree.allows location.dropLast .write = true ∧
          after = tree.put location (.file tree.freshNumber tree.newFileMode [])) ∨
        ∃ number mode content, tree.entry? location = some (.file number mode content) ∧
          after = tree.changeFile number fun entry =>
            (entry.withContent []).withMode (tree.keptMode mode)) := by
  simp only [createFile, unslashed, Bool.false_eq_true, if_false] at made
  obtain ⟨location, located, made⟩ := bind_eq_ok.mp made
  refine ⟨location, located, ?_⟩
  cases found : tree.entry? location with
  | none =>
    simp only [found] at made
    obtain ⟨_, writable, made⟩ := bind_eq_ok.mp made
    cases made
    exact .inl ⟨rfl, demand_eq_ok_iff.mp writable, rfl⟩
  | some entry =>
    cases entry with
    | file number mode content =>
      simp only [found] at made
      obtain ⟨_, _, made⟩ := bind_eq_ok.mp made
      cases made
      exact .inr ⟨number, mode, content, rfl, rfl⟩
    | directory _ => simp only [found] at made; cases made
    | link _ => simp only [found] at made; cases made

/-! ## Taking a name away -/

theorem unlink_eq_error (absent : ∀ slot location, tree.slot path = .ok slot →
    slotLocation slot = .ok location → tree.entry? location = none) :
    ∃ fault, tree.unlink path = .error fault := by
  cases found : tree.slot path with
  | error fault => exact ⟨fault, by simp only [unlink, found]; rfl⟩
  | ok slot =>
    cases located : slotLocation slot with
    | error fault => exact ⟨fault, by simp only [unlink, found, located, bind, Except.bind]⟩
    | ok location =>
      have none := absent slot location found located
      exact ⟨.missing, by simp only [unlink, found, located, none, bind, Except.bind]; rfl⟩

theorem unlink_file (names : tree.Names path parent name) (short : name.length ≤ longestName)
    (found : tree.entry? (parent ++ [name]) = some (.file number mode content))
    (writable : tree.allows parent .write = true) :
    tree.unlink path = .ok (tree.erase (parent ++ [name])) := by
  have located : slotLocation ⟨parent, some name, false⟩ = .ok (parent ++ [name]) :=
    slotLocation_eq_ok_iff.mpr ⟨name, rfl, short, rfl⟩
  simp only [unlink, slot_eq_ok_iff.mpr names, located, found, demand_eq_ok_iff.mpr writable, bind,
    Except.bind]
  rfl

/-! ## Moving a name -/

/-- What a successful move found at its two ends. -/
structure Movable (tree : FileTree) (source target : Bytes) (parent place : Location)
    (name other : Name) (entry : Entry) : Prop where
  source : tree.Names source parent name
  target : tree.Names target place other
  short : name.length ≤ longestName ∧ other.length ≤ longestName
  found : tree.entry? (parent ++ [name]) = some entry
  single : ∀ mode, entry ≠ .directory mode

/-- What a move between two known places does if it succeeds. -/
private theorem move_eq_ok {parent place : Location} {source target : Location} {entry : Entry}
    (moved : (if source = target ∨ entry.number?.isSome = true ∧
          entry.number? = (tree.entry? target).bind Entry.number? then return tree
        else do
          tree.demand .write parent
          tree.demand .write place
          if (tree.entry? target) matches some (.directory _) then throw .isDirectory
          return (tree.put target entry).erase source : Except Fault FileTree) = .ok after) :
    (after = tree ∧ (source = target ∨ ∃ number, entry.number? = some number ∧
        (tree.entry? target).bind Entry.number? = some number)) ∨
      (source ≠ target ∧ tree.holdsDirectory target = false ∧
        after = (tree.put target entry).erase source) := by
  by_cases same : source = target ∨ entry.number?.isSome = true ∧
      entry.number? = (tree.entry? target).bind Entry.number?
  · rw [if_pos same] at moved
    cases moved
    refine .inl ⟨rfl, same.imp id ?_⟩
    rintro ⟨isSome, same⟩
    obtain ⟨number, known⟩ := Option.isSome_iff_exists.mp isSome
    exact ⟨number, known, same ▸ known⟩
  · rw [if_neg same] at moved
    obtain ⟨_, -, moved⟩ := bind_eq_ok.mp moved
    obtain ⟨_, -, moved⟩ := bind_eq_ok.mp moved
    refine .inr ⟨fun here => same (.inl here), ?_⟩
    cases replaced : tree.entry? target with
    | none =>
      simp only [replaced] at moved
      cases moved
      exact ⟨by simp [holdsDirectory, replaced], rfl⟩
    | some old =>
      cases old with
      | directory mode =>
        simp only [replaced] at moved
        cases moved
      | file _ _ _ | link _ =>
        simp only [replaced] at moved
        cases moved
        exact ⟨by simp [holdsDirectory, replaced], rfl⟩

theorem rename_eq_ok (moved : tree.rename source target = .ok after) :
    ∃ parent place name other entry,
      Movable tree source target parent place name other entry ∧
      ((after = tree ∧ (parent ++ [name] = place ++ [other] ∨ ∃ number,
          entry.number? = some number ∧
            (tree.entry? (place ++ [other])).bind Entry.number? = some number)) ∨
        (parent ++ [name] ≠ place ++ [other] ∧ tree.holdsDirectory (place ++ [other]) = false ∧
          after = (tree.put (place ++ [other]) entry).erase (parent ++ [name]))) := by
  simp only [rename] at moved
  obtain ⟨⟨parent, sourceName, sourceSlashed⟩, sourceSlot, moved⟩ := bind_eq_ok.mp moved
  obtain ⟨⟨place, targetName, targetSlashed⟩, targetSlot, moved⟩ := bind_eq_ok.mp moved
  by_cases unnamed : sourceName = none ∨ targetName = none
  · rw [if_pos unnamed] at moved
    cases moved
  rw [if_neg unnamed] at moved
  obtain ⟨_, sourceLocation, moved⟩ := bind_eq_ok.mp moved
  obtain ⟨_, targetLocation, moved⟩ := bind_eq_ok.mp moved
  obtain ⟨name, rfl, short, rfl⟩ := slotLocation_eq_ok_iff.mp sourceLocation
  obtain ⟨other, rfl, targetShort, rfl⟩ := slotLocation_eq_ok_iff.mp targetLocation
  dsimp only at moved
  cases found : tree.entry? (parent ++ [name]) with
  | none =>
    rw [found] at moved
    cases moved
  | some entry =>
    simp only [found] at moved
    by_cases directory : ∃ mode, entry = .directory mode
    · obtain ⟨mode, rfl⟩ := directory
      cases moved
    have single : ∀ mode, entry ≠ .directory mode := fun mode same => directory ⟨mode, same⟩
    rw [if_neg (by cases entry with
      | directory mode => exact absurd rfl (single mode)
      | file _ _ _ | link _ => simp)] at moved
    by_cases slashed : sourceSlashed = true ∨ targetSlashed = true
    · rw [if_pos slashed] at moved
      cases moved
    rw [if_neg slashed] at moved
    simp only [not_or, Bool.not_eq_true] at slashed
    obtain ⟨rfl, rfl⟩ := slashed
    exact ⟨parent, place, name, other, entry, ⟨slot_eq_ok_iff.mp sourceSlot,
      slot_eq_ok_iff.mp targetSlot, ⟨short, targetShort⟩, found, single⟩, move_eq_ok moved⟩

end ReleasePicker.Files.FileTree
