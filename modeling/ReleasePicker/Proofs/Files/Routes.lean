import ReleasePicker.Proofs.Files.Paths
import ReleasePicker.Proofs.Files.Trees

/-!
Walks step by step. A walk that gets on takes the next name to another location, or follows a link
and goes on with the names of the link in front of its own. A route is a chain of such steps with
the number of links that it follows. It does not mention the limit on links, which only says whether
a walk may take the route, so routes can be put together, cut, and carried over from one tree to
another. Working a location out name by name takes the same routes, unless the way to a name is
refused.
-/
namespace ReleasePicker.Files

/-- The path that a link leads on to. Nothing else leads on. -/
def Entry.target? : Entry → Option Bytes
  | .link target => some target
  | _ => none

namespace FileTree

variable {tree before after : FileTree} {manner other : Manner}

/-- Whether a walk may look for the name in what stands at the location. -/
structure Enters (tree : FileTree) (manner : Manner) (here : Location) (name : Name) : Prop where
  directory : tree.holdsDirectory here
  opened : manner.looksUp name = true → tree.allows here .search = true
  way : manner = .workedOut → tree.demandWay here name = .ok ()

/-- Whether the name has to be found in a directory, and can be. -/
def IsSought (name : Name) : Prop :=
  name ≠ [] ∧ name ≠ dot ∧ name ≠ dotDot ∧ name.length ≤ longestName

/-- Where the path of a link starts that stands in a directory. -/
def linkStart (here : Location) (target : Bytes) : Location :=
  if target.head? = some slash then [] else here

/-- One step of a walk: from a location with names to walk to another one with other names, and how
many links that takes. -/
inductive Hop (tree : FileTree) (manner : Manner) :
    Location → List Name → Nat → Location → List Name → Prop where
  | stay (enters : tree.Enters manner here name) (idle : name = [] ∨ name = dot) :
      Hop tree manner here (name :: rest) 0 here rest
  | up (enters : tree.Enters manner here dotDot) :
      Hop tree manner here (dotDot :: rest) 0 here.dropLast rest
  | down (enters : tree.Enters manner here name) (sought : IsSought name)
      (found : tree.entry? (here ++ [name]) = some entry) (noLink : entry.target? = none) :
      Hop tree manner here (name :: rest) 0 (here ++ [name]) rest
  | follow (enters : tree.Enters manner here name) (sought : IsSought name)
      (link : tree.entry? (here ++ [name]) = some (.link target)) :
      Hop tree manner here (name :: rest) 1 (linkStart here target) (walkNames target ++ rest)

/-- A chain of steps, and how many links it follows. -/
inductive Leads (tree : FileTree) (manner : Manner) :
    Location → List Name → Nat → Location → List Name → Prop where
  | refl : Leads tree manner here names 0 here names
  | hop (first : Hop tree manner here names cost there more)
      (onward : Leads tree manner there more used found rest) :
      Leads tree manner here names (cost + used) found rest

/-! ## Routes and walks -/

theorem demand_eq_ok_iff {permission : Permission} {location : Location} :
    tree.demand permission location = .ok () ↔ tree.allows location permission = true := by
  unfold demand
  split <;> simp_all

theorem demandDirectory_eq_ok_iff {location : Location} :
    tree.demandDirectory location = .ok () ↔ tree.holdsDirectory location = true := by
  unfold demandDirectory holdsDirectory
  split <;> simp_all

/-- One demand after another. -/
theorem demands_eq_ok_iff {first second : Except Fault Unit} :
    (first >>= fun _ => second) = .ok () ↔ first = .ok () ∧ second = .ok () := by
  cases first <;> simp [bind, Except.bind]

/-- A walk that hands the whole path over takes no way name by name. -/
theorem enters_whole (whole : manner ≠ .workedOut) (directory : tree.holdsDirectory here)
    (opened : manner.looksUp name = true → tree.allows here .search = true) :
    tree.Enters manner here name :=
  ⟨directory, opened, fun worked => absurd worked whole⟩

theorem enter_eq_ok_iff : tree.enter manner here name = .ok () ↔ tree.Enters manner here name := by
  have inside : (do tree.demandDirectory here
                    if manner.looksUp name then tree.demand .search here) = .ok () ↔
      tree.holdsDirectory here ∧
        (manner.looksUp name = true → tree.allows here .search = true) := by
    rw [demands_eq_ok_iff, demandDirectory_eq_ok_iff]
    cases manner.looksUp name <;> simp [demand_eq_ok_iff, pure, Except.pure]
  by_cases worked : manner = .workedOut
  · rw [enter, if_pos worked, demands_eq_ok_iff, inside]
    exact ⟨fun ⟨way, directory, opened⟩ => ⟨directory, opened, fun _ => way⟩,
      fun enters => ⟨enters.way worked, enters.directory, enters.opened⟩⟩
  · rw [enter, if_neg worked]
    refine inside.trans ⟨?_, fun enters => ⟨enters.directory, enters.opened⟩⟩
    rintro ⟨directory, opened⟩
    exact enters_whole worked directory opened

/-- What a walk does with a name in a directory that it may look the name up in. -/
theorem walk_cons (enters : tree.Enters manner here name) (links : Nat) (rest : List Name) :
    tree.walk manner links here (name :: rest) =
      if name = [] ∨ name = dot then tree.walk manner links here rest
      else if name = dotDot then tree.walk manner links here.dropLast rest
      else if longestName < name.length then .error .nameTooLong
      else
        match tree.entry? (here ++ [name]) with
        | none => if manner = .mayBeNew ∧ rest = [] then .ok (here ++ [name]) else .error .missing
        | some (.link target) =>
          match links with
          | 0 => .error .tooManyLinks
          | links + 1 =>
            tree.walk manner links (if target.head? = some slash then [] else here)
              (walkNames target ++ rest)
        | some _ => tree.walk manner links (here ++ [name]) rest := by
  have entered := enter_eq_ok_iff.mpr enters
  rw [walk]
  split
  · rename_i refused
    cases entered.symm.trans refused
  · rfl

theorem Hop.enters (hop : tree.Hop manner here (name :: rest) cost there more) :
    tree.Enters manner here name := by
  cases hop with
  | stay enters | up enters | down enters | follow enters => exact enters

theorem IsSought.special (sought : IsSought name) : ¬ (name = [] ∨ name = dot) := by
  rintro (empty | single)
  · exact sought.1 empty
  · exact sought.2.1 single

theorem walk_sought (enters : tree.Enters manner here name) (sought : IsSought name)
    (links : Nat) (rest : List Name) :
    tree.walk manner links here (name :: rest) =
      match tree.entry? (here ++ [name]) with
      | none => if manner = .mayBeNew ∧ rest = [] then .ok (here ++ [name]) else .error .missing
      | some (.link target) =>
        match links with
        | 0 => .error .tooManyLinks
        | links + 1 =>
          tree.walk manner links (linkStart here target) (walkNames target ++ rest)
      | some _ => tree.walk manner links (here ++ [name]) rest := by
  rw [walk_cons enters, if_neg sought.special, if_neg sought.2.2.1,
    if_neg (Nat.not_lt.mpr sought.2.2.2)]
  rfl

/-- A step is a step of every walk that may still follow enough links. -/
theorem Hop.walk_eq (hop : tree.Hop manner here names cost there more) (links : Nat) :
    tree.walk manner links here names =
      if cost ≤ links then tree.walk manner (links - cost) there more
      else .error .tooManyLinks := by
  cases hop with
  | stay enters idle =>
    rw [walk_cons enters, if_pos idle]
    simp
  | up enters =>
    rw [walk_cons enters, if_neg (by decide), if_pos rfl]
    simp
  | down enters sought found noLink =>
    rename_i entry
    rw [walk_sought enters sought, found]
    cases entry with
    | link target => cases noLink
    | file _ _ _ => simp
    | directory _ => simp
  | follow enters sought link =>
    rw [walk_sought enters sought, link]
    cases links with
    | zero => simp
    | succ links => simp

/-- A walk takes the route if it may follow as many links, and gets stuck on it otherwise. -/
theorem Leads.walk_eq (route : tree.Leads manner here names used found rest) (links : Nat) :
    tree.walk manner links here names =
      if used ≤ links then tree.walk manner (links - used) found rest
      else .error .tooManyLinks := by
  induction route generalizing links with
  | refl => simp
  | @hop _ _ cost _ _ used _ _ first onward ih =>
    rw [first.walk_eq]
    by_cases affordable : cost ≤ links
    · rw [if_pos affordable, ih]
      have same : used ≤ links - cost ↔ cost + used ≤ links := by omega
      simp only [same, Nat.sub_sub]
    · rw [if_neg affordable, if_neg (by omega)]

/-- Where a walk comes to: what stands at the end of a route, or the place of something new under a
name that is left over. -/
inductive Arrives (tree : FileTree) (manner : Manner) (here : Location) (names : List Name)
    (used : Nat) (found : Location) : Prop where
  | there (route : tree.Leads manner here names used found [])
  | new (new : manner = .mayBeNew) (route : tree.Leads manner here names used parent [name])
      (enters : tree.Enters manner parent name) (sought : IsSought name)
      (absent : tree.entry? (parent ++ [name]) = none) (place : found = parent ++ [name])

theorem Hop.arrives (first : tree.Hop manner here names cost there more)
    (later : tree.Arrives manner there more used found) :
    tree.Arrives manner here names (cost + used) found := by
  cases later with
  | there route => exact .there (.hop first route)
  | new new route enters sought absent place =>
    exact .new new (.hop first route) enters sought absent place

private theorem exists_arrives (first : tree.Hop manner here names cost there more)
    (affordable : cost ≤ links)
    (later : ∃ used, used ≤ links - cost ∧ tree.Arrives manner there more used found) :
    ∃ used, used ≤ links ∧ tree.Arrives manner here names used found := by
  obtain ⟨used, enough, later⟩ := later
  exact ⟨cost + used, by omega, first.arrives later⟩

/-- A walk that ends has taken a route. -/
theorem arrives_of_walk (walked : tree.walk manner links here names = .ok found) :
    ∃ used, used ≤ links ∧ tree.Arrives manner here names used found := by
  have soughtOf {name : Name} (idle : ¬ (name = [] ∨ name = dot)) (up : ¬ name = dotDot)
      (long : ¬ longestName < name.length) : IsSought name :=
    ⟨fun empty => idle (.inl empty), fun single => idle (.inr single), up, Nat.not_lt.mp long⟩
  fun_induction tree.walk manner links here names
  case case1 links here =>
    cases walked
    exact ⟨0, Nat.zero_le _, .there .refl⟩
  case case3 links here name rest entered idle ih =>
    exact exists_arrives (.stay (enter_eq_ok_iff.mp entered) idle) (Nat.zero_le _) (ih walked)
  case case4 links here rest entered idle ih =>
    exact exists_arrives (.up (enter_eq_ok_iff.mp entered)) (Nat.zero_le _) (ih walked)
  case case6 links here name rest entered idle up long absent last =>
    cases walked
    obtain ⟨new, rfl⟩ := last
    exact ⟨0, Nat.zero_le _, .new new .refl (enter_eq_ok_iff.mp entered) (soughtOf idle up long)
      absent rfl⟩
  case case9 here name rest entered idle up long target link links ih =>
    exact exists_arrives (.follow (enter_eq_ok_iff.mp entered) (soughtOf idle up long) link)
      (by omega) (ih walked)
  case case10 links here name rest entered idle up long entry noLink found ih =>
    have unlinked : entry.target? = none := by
      cases entry with
      | link target => exact absurd rfl (noLink target)
      | file _ _ _ => rfl
      | directory _ => rfl
    exact exists_arrives (.down (enter_eq_ok_iff.mp entered) (soughtOf idle up long) found unlinked)
      (Nat.zero_le _) (ih walked)
  -- What is left are the ends in an error.
  all_goals cases walked

/-- A walk that looks for what exists has taken a route to the end. -/
theorem leads_of_walk (standing : manner ≠ .mayBeNew)
    (walked : tree.walk manner links here names = .ok found) :
    ∃ used, used ≤ links ∧ tree.Leads manner here names used found [] := by
  obtain ⟨used, enough, arrives⟩ := arrives_of_walk walked
  cases arrives with
  | there route => exact ⟨used, enough, route⟩
  | new new => exact absurd new standing

/-- A step that takes a name finds something under the name and goes down to it, or follows it. -/
theorem Hop.of_sought (sought : IsSought name)
    (hop : tree.Hop manner here (name :: rest) cost there more) :
    (∃ entry, tree.entry? (here ++ [name]) = some entry ∧ entry.target? = none ∧ cost = 0 ∧
      there = here ++ [name] ∧ more = rest) ∨
      ∃ target, tree.entry? (here ++ [name]) = some (.link target) ∧ cost = 1 ∧
        there = linkStart here target ∧ more = walkNames target ++ rest := by
  cases hop with
  | stay enters idle => exact absurd idle sought.special
  | up enters => exact absurd rfl sought.2.2.1
  | down enters sought found noLink => exact .inl ⟨_, found, noLink, rfl, rfl, rfl⟩
  | follow enters sought link => exact .inr ⟨_, link, rfl, rfl, rfl⟩

/-! ## Putting routes together -/

theorem Leads.trans (first : tree.Leads manner here names used there more)
    (second : tree.Leads manner there more later found rest) :
    tree.Leads manner here names (used + later) found rest := by
  induction first with
  | refl => rwa [Nat.zero_add]
  | hop step _ ih =>
    rw [Nat.add_assoc]
    exact .hop step (ih second)

theorem Hop.append (hop : tree.Hop manner here names cost there more) (rest : List Name) :
    tree.Hop manner here (names ++ rest) cost there (more ++ rest) := by
  cases hop with
  | stay enters idle => exact .stay enters idle
  | up enters => exact .up enters
  | down enters sought found noLink => exact .down enters sought found noLink
  | follow enters sought link =>
    rw [List.append_assoc]
    exact .follow enters sought link

theorem Leads.append (route : tree.Leads manner here names used found more) (rest : List Name) :
    tree.Leads manner here (names ++ rest) used found (more ++ rest) := by
  induction route with
  | refl => exact .refl
  | hop first _ ih => exact .hop (first.append rest) ih

private theorem Hop.split (hop : tree.Hop manner here (name :: (front ++ back)) cost there more) :
    ∃ left, more = left ++ back ∧ tree.Hop manner here (name :: front) cost there left := by
  cases hop with
  | stay enters idle => exact ⟨front, rfl, .stay enters idle⟩
  | up enters => exact ⟨front, rfl, .up enters⟩
  | down enters sought found noLink => exact ⟨front, rfl, .down enters sought found noLink⟩
  | follow enters sought link =>
    exact ⟨_, (List.append_assoc _ _ _).symm, .follow enters sought link⟩

/-- A route along two lists of names ends within the first one or goes on from where that leads. -/
theorem Leads.split (route : tree.Leads manner here (front ++ back) used found rest) :
    (∃ left, rest = left ++ back ∧ tree.Leads manner here front used found left) ∨
      ∃ first middle second, first + second = used ∧ tree.Leads manner here front first middle [] ∧
        tree.Leads manner middle back second found rest := by
  generalize whole : front ++ back = names at route
  induction route generalizing front with
  | refl => exact .inl ⟨front, whole.symm, .refl⟩
  | @hop here names cost there more used found rest first onward ih =>
    cases front with
    | nil =>
      rw [List.nil_append] at whole
      subst whole
      exact .inr ⟨0, here, cost + used, Nat.zero_add _, .refl, .hop first onward⟩
    | cons name front =>
      subst whole
      obtain ⟨left, rfl, start⟩ := first.split
      rcases ih rfl with ⟨left, rfl, route⟩ | ⟨one, middle, two, sum, route, onward⟩
      · exact .inl ⟨left, rfl, .hop start route⟩
      · exact .inr ⟨cost + one, middle, two, by omega, .hop start route, onward⟩

/-- A route along two lists of names has a part along the first. -/
theorem Leads.of_append (route : tree.Leads manner here (front ++ back) used found []) :
    ∃ first middle, tree.Leads manner here front first middle [] := by
  rcases route.split with ⟨left, short, route⟩ | ⟨first, middle, _, _, route, -⟩
  · obtain ⟨rfl, -⟩ := List.append_eq_nil_iff.mp short.symm
    exact ⟨used, found, route⟩
  · exact ⟨first, middle, route⟩

/-! ## Where routes end -/

/-- Whether a walk can stand at the location: something is there that does not lead on. -/
def Stands (tree : FileTree) (location : Location) : Prop :=
  ∃ entry, tree.entry? location = some entry ∧ entry.target? = none

theorem number?_eq_some_iff {entry : Entry} :
    entry.number? = some number ↔ ∃ mode content, entry = .file number mode content := by
  cases entry <;> simp [Entry.number?]

theorem holdsDirectory_of_file (found : tree.entry? place = some entry)
    (file : entry.number?.isSome) : tree.holdsDirectory place = false := by
  rw [holdsDirectory, found]
  cases entry <;> first | rfl | cases file

theorem target?_of_file {entry : Entry} (file : entry.number?.isSome) : entry.target? = none := by
  cases entry <;> first | rfl | cases file

theorem not_directory_of_absent (absent : tree.entry? location = none) :
    tree.holdsDirectory location = false := by
  simp [holdsDirectory, absent]

theorem stands_of_directory (directory : tree.holdsDirectory location) : tree.Stands location := by
  obtain ⟨mode, found⟩ := holdsDirectory_iff.mp directory
  exact ⟨_, found, rfl⟩

theorem WellFormed.directory_above (wellFormed : tree.WellFormed)
    (directory : tree.holdsDirectory location) : tree.holdsDirectory location.dropLast := by
  obtain ⟨mode, found⟩ := holdsDirectory_iff.mp directory
  by_cases root : location = []
  · subst root
    exact directory
  · have shorter : location.dropLast ≠ location := by
      intro same
      have length := congrArg List.length same
      have positive := List.length_pos_iff.mpr root
      rw [List.length_dropLast] at length
      omega
    exact wellFormed.above (by simp [found]) (List.dropLast_prefix location) shorter

theorem Hop.stands (wellFormed : tree.WellFormed)
    (hop : tree.Hop manner here names cost there more) : tree.Stands there := by
  cases hop with
  | stay enters => exact stands_of_directory enters.directory
  | up enters => exact stands_of_directory (wellFormed.directory_above enters.directory)
  | down enters sought found noLink => exact ⟨_, found, noLink⟩
  | follow enters =>
    unfold linkStart
    split
    · exact ⟨_, rfl, rfl⟩
    · exact stands_of_directory enters.directory

theorem Leads.stands_of (wellFormed : tree.WellFormed)
    (route : tree.Leads manner here names used found rest) (start : tree.Stands here) :
    tree.Stands found := by
  induction route with
  | refl => exact start
  | hop first _ ih => exact ih (first.stands wellFormed)

/-- A route along some names ends at something. -/
theorem Leads.stands (wellFormed : tree.WellFormed) (some : names ≠ [])
    (route : tree.Leads manner here names used found []) : tree.Stands found := by
  cases route with
  | refl => exact absurd rfl some
  | hop first onward => exact onward.stands_of wellFormed (first.stands wellFormed)

/-- No route goes on from a file. -/
theorem Leads.from_file (file : tree.entry? here = some entry) (number : entry.number?.isSome)
    (route : tree.Leads manner here names used found rest) : found = here ∧ rest = names := by
  cases route with
  | refl => exact ⟨rfl, rfl⟩
  | hop first _ =>
    have directory : tree.holdsDirectory here := by
      cases first with
      | stay enters | up enters | down enters | follow enters => exact enters.directory
    obtain ⟨mode, found⟩ := holdsDirectory_iff.mp directory
    cases file.symm.trans found
    cases number

/-! ## Routes in other trees -/

theorem target?_eq_some_iff {entry : Entry} :
    entry.target? = some target ↔ entry = .link target := by
  cases entry <;> simp [Entry.target?]

/-- A route in one tree is one in another, unless it comes to a place where the two differ. What it
comes to there is its next step in the first tree, and the way there is a route in the second. -/
theorem Leads.keep_or_meet (met : Location → Prop)
    (enters : ∀ here name, before.Enters manner here name → after.Enters other here name)
    (kept : ∀ place entry, ¬ met place → before.entry? place = some entry →
      ∃ entry', after.entry? place = some entry' ∧ entry'.target? = entry.target?)
    (route : before.Leads manner here names used found rest) :
    after.Leads other here names used found rest ∨
      ∃ stop name more first cost there next second, met (stop ++ [name]) ∧ IsSought name ∧
        first + (cost + second) = used ∧
        after.Leads other here names first stop (name :: more) ∧
        before.Hop manner stop (name :: more) cost there next ∧
        before.Leads manner there next second found rest := by
  induction route with
  | refl => exact .inl .refl
  | @hop here names cost there more used found rest first onward ih =>
    have proceed (hop : after.Hop other here names cost there more) :
        after.Leads other here names (cost + used) found rest ∨
          ∃ stop name more first cost' there next second, met (stop ++ [name]) ∧ IsSought name ∧
            first + (cost' + second) = cost + used ∧
            after.Leads other here names first stop (name :: more) ∧
            before.Hop manner stop (name :: more) cost' there next ∧
            before.Leads manner there next second found rest := by
      rcases ih with route | ⟨stop, name, more, one, cost', there, next, two, meets, sought, sum,
        route, step, onward⟩
      · exact .inl (.hop hop route)
      · exact .inr ⟨stop, name, more, cost + one, cost', there, next, two, meets, sought, by omega,
          .hop hop route, step, onward⟩
    cases first with
    | stay allowed idle => exact proceed (.stay (enters _ _ allowed) idle)
    | up allowed => exact proceed (.up (enters _ _ allowed))
    | @down name entry _ allowed sought found noLink =>
      by_cases meets : met (here ++ [name])
      · exact .inr ⟨here, name, more, 0, 0, _, _, used, meets, sought, by omega, .refl,
          .down allowed sought found noLink, onward⟩
      · obtain ⟨entry', found, same⟩ := kept _ _ meets found
        exact proceed (.down (enters _ _ allowed) sought found (same.trans noLink))
    | follow allowed sought link =>
      rename_i name target rest'
      by_cases meets : met (here ++ [name])
      · exact .inr ⟨here, name, rest', 0, 1, _, _, used, meets, sought, by omega, .refl,
          .follow allowed sought link, onward⟩
      · obtain ⟨entry', found, same⟩ := kept _ _ meets link
        rw [target?_eq_some_iff.mp same] at found
        exact proceed (.follow (enters _ _ allowed) sought found)

theorem Leads.keep
    (enters : ∀ here name, before.Enters manner here name → after.Enters other here name)
    (kept : ∀ place entry, before.entry? place = some entry →
      ∃ entry', after.entry? place = some entry' ∧ entry'.target? = entry.target?)
    (route : before.Leads manner here names used found rest) :
    after.Leads other here names used found rest := by
  rcases route.keep_or_meet (fun _ => False) enters (fun place entry _ => kept place entry)
    with route | ⟨_, _, _, _, _, _, _, _, meets, _⟩
  · exact route
  · exact meets.elim

/-- Two routes to the end of the same names have the same end. -/
theorem Leads.end_unique (first : tree.Leads manner here names used found [])
    (second : tree.Leads manner here names spent place []) : found = place := by
  have one := first.walk_eq (used + spent)
  have two := second.walk_eq (used + spent)
  rw [if_pos (Nat.le_add_right _ _), walk] at one
  rw [if_pos (Nat.le_add_left _ _), walk] at two
  exact Except.ok.inj (one.symm.trans two)

/-- Where names are not worked out one by one, all are looked up, in whatever manner. -/
theorem looksUp_of_ne (whole : manner ≠ .workedOut) (name : Name) :
    manner.looksUp name = (name != []) := by
  simp [Manner.looksUp, whole]

/-- What is there and what is new are looked for in the same way. -/
theorem Enters.inManner (whole : manner ≠ .workedOut) (entire : other ≠ .workedOut)
    (enters : tree.Enters manner here name) : tree.Enters other here name := by
  obtain ⟨directory, opened, -⟩ := enters
  rw [looksUp_of_ne whole] at opened
  exact enters_whole entire directory (by rwa [looksUp_of_ne entire])

theorem Leads.inManner (whole : manner ≠ .workedOut) (entire : other ≠ .workedOut)
    (route : tree.Leads manner here names used found rest) :
    tree.Leads other here names used found rest :=
  route.keep (fun _ _ enters => enters.inManner whole entire)
    fun _ entry found => ⟨entry, found, rfl⟩

/-! ## Routes that are worked out -/

/-- A way is refused because it is too long or closed, never because something is missing. -/
theorem demandWay_cases (tree : FileTree) (here : Location) (name : Name) :
    tree.demandWay here name = .ok () ∨
      ∃ fault, fault ≠ .missing ∧ tree.demandWay here name = .error fault := by
  unfold demandWay
  split_ifs
  · exact .inr ⟨.nameTooLong, by decide, rfl⟩
  · exact .inl rfl
  · exact .inr ⟨.denied, by decide, rfl⟩
  · exact .inr ⟨.nameTooLong, by decide, rfl⟩
  · exact .inl rfl

/-- What can be entered can be entered when names are worked out one by one, or the way is
refused. -/
theorem Enters.workedOut (enters : tree.Enters .mustExist here name) :
    tree.Enters .workedOut here name ∨
      ∃ fault, fault ≠ .missing ∧ tree.enter .workedOut here name = .error fault := by
  rcases tree.demandWay_cases here name with way | ⟨fault, other, way⟩
  · refine .inl ⟨enters.directory, ?_, fun _ => way⟩
    intro looks
    apply enters.opened
    simp only [Manner.looksUp, Bool.and_eq_true] at looks ⊢
    exact ⟨looks.1, rfl⟩
  · refine .inr ⟨fault, other, ?_⟩
    rw [enter, if_pos rfl, way]
    rfl

/-- A step is a step in another manner if that lets it enter. -/
theorem Hop.reenter (hop : tree.Hop manner here (name :: rest) cost there more)
    (enters : tree.Enters other here name) :
    tree.Hop other here (name :: rest) cost there more := by
  cases hop with
  | stay _ idle => exact .stay enters idle
  | up _ => exact .up enters
  | down _ sought found noLink => exact .down enters sought found noLink
  | follow _ sought link => exact .follow enters sought link

/-- A route is one when names are worked out one by one, or a way on it is refused. -/
theorem Leads.workedOut (route : tree.Leads .mustExist here names used found rest) :
    tree.Leads .workedOut here names used found rest ∨ ∀ links, ∃ fault, fault ≠ .missing ∧
      tree.walk .workedOut links here names = .error fault := by
  induction route with
  | refl => exact .inl .refl
  | @hop here names cost there more used found rest first _ ih =>
    cases names with
    | nil => cases first
    | cons name left =>
      rcases first.enters.workedOut with enters | ⟨fault, other, refused⟩
      · have hop := first.reenter enters
        rcases ih with route | stuck
        · exact .inl (.hop hop route)
        · right
          intro links
          rw [hop.walk_eq]
          split
          · exact stuck (links - cost)
          · exact ⟨.tooManyLinks, by decide, rfl⟩
      · right
        intro links
        refine ⟨fault, other, ?_⟩
        rw [walk, refused]

/-- Working out the names of a route to something does not come to nothing. -/
theorem Leads.walk_ne_missing (route : tree.Leads .mustExist here names used found [])
    (links : Nat) : tree.walk .workedOut links here names ≠ .error .missing := by
  rcases route.workedOut with route | stuck
  · rw [route.walk_eq]
    split
    · rw [walk]
      simp
    · decide
  · obtain ⟨fault, other, stuck⟩ := stuck links
    rw [stuck]
    intro missing
    exact other (Except.error.inj missing)

/-! ## Trees that differ in files -/

/-- What can be entered depends on nothing but who enters and what is there. -/
theorem enters_of_same (caller : after.caller = before.caller)
    (same : after.entry? here = before.entry? here) (enters : before.Enters .mustExist here last) :
    after.Enters .mustExist here last := by
  obtain ⟨directory, opened, -⟩ := enters
  unfold holdsDirectory at directory
  unfold allows at opened
  apply enters_whole (by decide)
  · rwa [holdsDirectory, same]
  · rwa [allows, same, caller]

/-- Whether one tree has the directories and links of another one and a file wherever that has
one. -/
structure Refiled (before after : FileTree) : Prop where
  caller : after.caller = before.caller
  workingDirectory : after.workingDirectory = before.workingDirectory
  files : ∀ place entry, before.entry? place = some entry → entry.number?.isSome →
    ∃ entry', after.entry? place = some entry' ∧ entry'.number?.isSome
  others : ∀ place entry, entry.number? = none →
    (before.entry? place = some entry ↔ after.entry? place = some entry)

theorem Refiled.refl (tree : FileTree) : tree.Refiled tree where
  caller := rfl
  workingDirectory := rfl
  files := fun _ entry found number => ⟨entry, found, number⟩
  others := fun _ _ _ => Iff.rfl

theorem Refiled.trans (first : tree.Refiled now) (second : now.Refiled after) :
    tree.Refiled after where
  caller := second.caller.trans first.caller
  workingDirectory := second.workingDirectory.trans first.workingDirectory
  files := by
    intro place entry found file
    obtain ⟨entry, found, file⟩ := first.files place entry found file
    exact second.files place entry found file
  others := fun place entry single =>
    (first.others place entry single).trans (second.others place entry single)

theorem Refiled.directory_iff (refiled : before.Refiled after) :
    before.holdsDirectory place ↔ after.holdsDirectory place := by
  simp only [holdsDirectory_iff]
  exact exists_congr fun mode => refiled.others place (.directory mode) rfl

theorem Refiled.allows_eq (refiled : before.Refiled after)
    (directory : before.holdsDirectory place) (permission : Permission) :
    after.allows place permission = before.allows place permission := by
  obtain ⟨mode, found⟩ := holdsDirectory_iff.mp directory
  have same := (refiled.others place (.directory mode) rfl).mp found
  simp only [allows, refiled.caller, found, same]

/-- Where a directory stands, there are only directories on the way to it, and these stay. -/
theorem Refiled.demandWay_eq (refiled : before.Refiled after) (wellFormed : before.WellFormed)
    (directory : before.holdsDirectory here) (name : Name) :
    after.demandWay here name = before.demandWay here name := by
  have open_eq (depth : Nat) : after.allows (here.take depth) .search =
      before.allows (here.take depth) .search := by
    apply refiled.allows_eq
    by_cases whole : here.take depth = here
    · rwa [whole]
    · obtain ⟨mode, found⟩ := holdsDirectory_iff.mp directory
      exact wellFormed.above (by simp [found]) (List.take_prefix depth here) whole
  simp only [demandWay, refiled.workingDirectory, open_eq]

theorem Refiled.enters (refiled : before.Refiled after) (entered : before.Enters manner here name)
    (housed : manner ≠ .workedOut ∨ before.WellFormed) : after.Enters manner here name where
  directory := refiled.directory_iff.mp entered.directory
  opened := by
    rw [refiled.allows_eq entered.directory]
    exact entered.opened
  way := by
    intro worked
    have wellFormed := housed.resolve_left (not_not_intro worked)
    rw [refiled.demandWay_eq wellFormed entered.directory]
    exact entered.way worked

theorem Refiled.keep (refiled : before.Refiled after) (place : Location) (entry : Entry)
    (found : before.entry? place = some entry) :
    ∃ entry', after.entry? place = some entry' ∧ entry'.target? = entry.target? := by
  cases number : entry.number? with
  | none => exact ⟨entry, (refiled.others place entry number).mp found, rfl⟩
  | some _ =>
    have file : entry.number?.isSome := by rw [number]; rfl
    obtain ⟨entry', found', file'⟩ := refiled.files place entry found file
    exact ⟨entry', found', by rw [target?_of_file file', target?_of_file file]⟩

theorem Refiled.leads (refiled : before.Refiled after)
    (route : before.Leads manner here names used found rest)
    (housed : manner ≠ .workedOut ∨ before.WellFormed) :
    after.Leads manner here names used found rest :=
  route.keep (fun _ _ entered => refiled.enters entered housed) refiled.keep

theorem Refiled.startOf_eq (refiled : before.Refiled after) (path : Bytes) :
    after.startOf path = before.startOf path := by
  rw [startOf, startOf, refiled.workingDirectory]

/-- A file put in the place of a file, or of nothing. -/
theorem refiled_put (tree : FileTree) (named : location ≠ []) (number : entry.number?.isSome)
    (free : ∀ old, tree.entry? location = some old → old.number?.isSome) :
    tree.Refiled (tree.put location entry) where
  caller := caller_put tree location entry
  workingDirectory := workingDirectory_put tree location entry
  files := by
    intro place old found isFile
    rw [entry?_put tree named]
    by_cases here : place = location
    · exact ⟨entry, if_pos here, number⟩
    · exact ⟨old, by rw [if_neg here, found], isFile⟩
  others := by
    intro place other isNone
    rw [entry?_put tree named]
    by_cases here : place = location
    · subst here
      rw [if_pos rfl]
      constructor
      · intro found
        simpa [isNone] using free other found
      · intro same
        cases same
        simp [isNone] at number
    · rw [if_neg here]

/-- A file that takes no directory's place does not matter to what can be entered. -/
theorem enters_put_iff (tree : FileTree) (named : location ≠ []) (number : entry.number?.isSome)
    (single : tree.holdsDirectory location = false) :
    (tree.put location entry).Enters .mustExist here name ↔ tree.Enters .mustExist here name := by
  by_cases same : here = location
  · subst same
    have found := entry?_put tree named entry here
    rw [if_pos rfl] at found
    have file := holdsDirectory_of_file found number
    constructor
    · rintro ⟨directory, -, -⟩
      cases file.symm.trans directory
    · rintro ⟨directory, -, -⟩
      cases single.symm.trans directory
  · have stays : FileTree.entry? (tree.put location entry) here = tree.entry? here := by
      rw [entry?_put tree named, if_neg same]
    exact ⟨enters_of_same (caller_put tree location entry).symm stays.symm,
      enters_of_same (caller_put tree location entry) stays⟩

/-- A route past a new file is one without it. -/
theorem leads_of_put (named : location ≠ []) (number : entry.number?.isSome)
    (single : tree.holdsDirectory location = false) (away : found ≠ location)
    (route : (tree.put location entry).Leads .mustExist here names used found rest) :
    tree.Leads .mustExist here names used found rest := by
  have kept (place : Location) (other : Entry) (apart : ¬ place = location)
      (standing : FileTree.entry? (tree.put location entry) place = some other) :
      ∃ entry', tree.entry? place = some entry' ∧ entry'.target? = other.target? := by
    rw [entry?_put tree named, if_neg apart] at standing
    exact ⟨other, standing, rfl⟩
  rcases route.keep_or_meet (· = location)
      (fun _ _ => (enters_put_iff tree named number single).mp) kept with
    route | ⟨stop, name, more, first, cost, there, next, second, meets, sought, -, -, hop, onward⟩
  · exact route
  · have file : FileTree.entry? (tree.put location entry) location = some entry := by
      rw [entry?_put tree named, if_pos rfl]
    rcases hop.of_sought sought with ⟨_, -, -, -, rfl, rfl⟩ | ⟨target, link, -⟩
    · rw [meets] at onward
      exact absurd (onward.from_file file number).1 away
    · rw [meets, file] at link
      cases link
      cases number

end FileTree

end ReleasePicker.Files
