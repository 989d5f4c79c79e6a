import ReleasePicker.Proofs.Options.BlockGrammar
import ReleasePicker.Proofs.Options.PatternReading

/-!
The two patterns find the block that the line readers find. The text is followed line by line:
inside a line the anchor of the block pattern fails, at the start of a line the pattern matches if
the line is a key line, and then its repetition takes the run of entry lines and no more.
-/
namespace ReleasePicker.Options

open Pattern
open Text (breaksLine isIndent Cut Terminated)

/-! ## The run of entry lines -/

theorem EntryLine.feed_not_mem {entry : EntryLine} (sound : entry.Sound)
    (last : entry.newline = none) : '\n' ∉ entry.render := by
  simpa [EntryLine.render, last] using sound.oneLine.feed_not_mem

theorem EntryLine.lines_render {entry : EntryLine} (sound : entry.Sound)
    (last : entry.newline = none → rest = []) :
    Text.lines (entry.render ++ rest) = entry.render :: Text.lines rest := by
  cases ended : entry.newline with
  | some newline => exact Text.lines_terminated (EntryLine.terminated_render sound ended) rest
  | none =>
    have written : entry.render ≠ [] := by simp [EntryLine.render, formatEntry]
    rw [last ended, List.append_nil, Text.lines_open written (entry.feed_not_mem sound ended)]
    rfl

/-- Where the first line is no entry line, there is none. -/
theorem ways_entryLine_eq_nil (cut : Cut pieces)
    (stop : ∀ line ∈ pieces.head?, EntryLine.ofLine? line = none) (before : Text)
    (groups : List (Group × Text × Text)) :
    entryLine.ways ⟨before, pieces.flatten, groups⟩ = [] := by
  refine List.eq_nil_iff_forall_not_mem.mpr fun place way => ?_
  obtain ⟨entry, sound, whole, last⟩ := mem_ways_entryLine way
  have first := EntryLine.lines_render sound last
  rw [← whole, Text.lines_flatten cut] at first
  have none := stop entry.render (by simp [first])
  rw [EntryLine.ofLine?_render sound] at none
  cases none

/-- The repetition takes the whole run of entry lines first. -/
theorem ways_many_entryLine {entries : List EntryLine} (sound : ∀ entry ∈ entries, entry.Sound)
    (cut : Cut (entries.map EntryLine.render ++ after))
    (stop : ∀ line ∈ after.head?, EntryLine.ofLine? line = none) (before : Text)
    (groups : List (Group × Text × Text)) :
    ∃ others, (many entryLine).ways
        ⟨before, entries.flatMap EntryLine.render ++ after.flatten, groups⟩ =
      ⟨before ++ entries.flatMap EntryLine.render, after.flatten, groups⟩ :: others := by
  induction entries generalizing before with
  | nil =>
    refine ⟨[], ?_⟩
    rw [List.flatMap_nil, List.nil_append, ways_many_stop
      (ways_entryLine_eq_nil (by simpa using cut) stop before groups), List.append_nil]
  | cons entry entries ih =>
    obtain ⟨ended, below⟩ := Text.cut_cons cut
    have first := sound entry (by simp)
    have last : entry.newline = none →
        entries.flatMap EntryLine.render ++ after.flatten = [] := by
      intro none
      have feedless := entry.feed_not_mem first none
      have empty : entries.map EntryLine.render ++ after = [] :=
        ended.resolve_left fun ⟨body, _, whole⟩ => feedless (by simp [whole])
      rw [List.append_eq_nil_iff, List.map_eq_nil_iff] at empty
      simp [empty]
    have step := ways_entryLine first last before groups
    obtain ⟨others, more⟩ := ih (fun other member => sound other (by simp [member])) below
      (before ++ entry.render)
    refine ⟨others ++ [⟨before, entry.render ++ (entries.flatMap EntryLine.render ++
      after.flatten), groups⟩], ?_⟩
    have forward : 0 < entry.render.length :=
      List.length_pos_iff.mpr (by simp [EntryLine.render, formatEntry])
    rw [List.flatMap_cons, List.append_assoc, ways_many_step step
      (by simp only [List.length_append]; omega), more]
    simp

/-! ## The search for the key line -/

/-- Where the first line is no key line, there is no match. -/
theorem ways_block_eq_nil (cut : Cut pieces)
    (noKey : ∀ line ∈ pieces.head?, KeyLine.ofLine? line = none) (before : Text) :
    block.ways ⟨before, pieces.flatten, []⟩ = [] := by
  refine List.eq_nil_iff_forall_not_mem.mpr fun stop way => ?_
  simp only [block, ways_both, List.mem_flatMap] at way
  obtain ⟨atStart, anchored, afterKey, keyed, -⟩ := way
  have same : atStart = ⟨before, pieces.flatten, []⟩ := by
    simp only [ways] at anchored
    split at anchored
    · exact List.mem_singleton.mp anchored
    · cases anchored
  obtain ⟨inner, keyed, -⟩ := rest_of_mem_ways_group keyed
  obtain ⟨key, sound, whole⟩ := mem_ways_keyLine keyed
  have first := Text.lines_terminated (KeyLine.terminated_render sound) inner.rest
  rw [← whole, same, Text.lines_flatten cut] at first
  have none := noKey key.render (by simp [first])
  rw [KeyLine.ofLine?_render sound] at none
  cases none

/-- Inside a line there is no match. -/
theorem ways_block_inside (other : c ≠ '\n') (before rest : Text) :
    block.ways ⟨before ++ [c], rest, []⟩ = [] := by
  simp [block, ways, other]

/-- A line without a match at its start is passed by. -/
theorem search_line (written : line ≠ []) (closed : '\n' ∉ line.dropLast)
    (noMatch : block.ways ⟨before, line ++ rest, []⟩ = []) :
    block.search before (line ++ rest) = block.search (before ++ line) rest := by
  induction line generalizing before with
  | nil => exact absurd rfl written
  | cons c line ih =>
    simp only [List.cons_append, search] at noMatch ⊢
    rw [noMatch, List.head?_nil]
    cases line with
    | nil => rfl
    | cons d line =>
      simp only [List.dropLast_cons_cons, List.mem_cons, not_or] at closed
      have next := ways_block_inside (Ne.symm closed.1) before (d :: line ++ rest)
      simpa using ih (by simp) closed.2 next

/-- Lines that are no key lines are passed by. -/
theorem search_above {above : List Text} (cut : Cut (above ++ pieces))
    (noKey : ∀ line ∈ above, KeyLine.ofLine? line = none) (before : Text) :
    block.search before (above ++ pieces).flatten =
      block.search (before ++ above.flatten) pieces.flatten := by
  induction above generalizing before with
  | nil => simp
  | cons line above ih =>
    have noMatch : block.ways ⟨before, line ++ (above ++ pieces).flatten, []⟩ = [] :=
      ways_block_eq_nil cut (by simpa using noKey line (by simp)) before
    obtain ⟨written, closed⟩ := Text.cut_head cut
    have below := ih (Text.cut_cons cut).2 (fun other member => noKey other (by simp [member]))
      (before ++ line)
    rw [List.cons_append, List.flatten_cons, search_line written closed noMatch, below]
    simp

theorem search_eq_some {pattern : Pattern}
    (way : (pattern.ways ⟨before, text, []⟩).head? = some stop) :
    pattern.search before text = some stop := by
  cases text with
  | nil => exact way
  | cons c text => simp only [search, way]

/-- Without a key line there is no match. -/
theorem find?_block_eq_none (noKey : ∀ line ∈ Text.lines content, KeyLine.ofLine? line = none) :
    block.find? content = none := by
  have cut : Cut (Text.lines content ++ []) := by simpa using Text.cut_lines content
  have passed := search_above cut noKey []
  have atEnd := ways_block_eq_nil .nil (by simp) content
  rw [List.append_nil, Text.flatten_lines] at passed
  rw [find?, passed, List.nil_append, List.flatten_nil, search]
  simpa using atEnd

/-- The groups of a match at a key line, given what stands above it. -/
def keyGroups (above : Text) (key : KeyLine) : List (Group × Text × Text) :=
  [(.key, above, key.render),
    (.newline, above ++ key.indent ++ keyword ++ key.tail, key.newline.text),
    (.keyIndent, above, key.indent)]

theorem ways_block {key : KeyLine} (sound : key.Sound)
    (atStart : above = [] ∨ above.getLast? = some '\n') (rest : Text) :
    block.ways ⟨above, key.render ++ rest, []⟩ =
      (group .entries (many entryLine)).ways ⟨above ++ key.render, rest, keyGroups above key⟩ := by
  have anchored : lineStart.ways ⟨above, key.render ++ rest, []⟩ =
      [⟨above, key.render ++ rest, []⟩] :=
    if_pos atStart
  rw [block, ways_both, anchored, List.flatMap_singleton, ways_both, flatMap_ways_group,
    ways_keyLine sound, List.flatMap_singleton, List.drop_left]
  rfl

/-- Where the first key line is, the block pattern matches down to the end of the run. -/
theorem find?_block_render {layout : Layout} (sound : layout.Sound) :
    block.find? layout.render = some
      ⟨layout.head ++ layout.body, layout.foot,
        (.entries, layout.head, layout.body) :: keyGroups layout.before.flatten layout.key⟩ := by
  have passed := search_above sound.cut sound.above []
  have atStart := Text.getLast?_flatten (sound.cut.terminated (by simp))
  obtain ⟨others, run⟩ := ways_many_entryLine sound.entries sound.cut_below sound.stop layout.head
    (keyGroups layout.before.flatten layout.key)
  have below :
      (layout.key.render :: (layout.entries.map EntryLine.render ++ layout.after)).flatten =
        layout.key.render ++ (layout.body ++ layout.after.flatten) := by
    simp [Layout.body, List.flatMap_def]
  rw [find?, ← layout.flatten_lines, Layout.lines, passed, List.nil_append, below]
  apply search_eq_some
  rw [ways_block sound.key atStart, ways, ← Layout.head, Layout.body, run, List.map_cons,
    List.head?_cons, List.drop_left]
  rfl

/-! ## The entries of the run -/

/-- A line break goes with the line feed, and nothing else does. -/
theorem bareLine_ended (oneLine : OneLine text) (newline : Option Newline) :
    Text.bareLine (text ++ endingText newline) = text := by
  obtain ⟨back, rfl⟩ : ∃ back, text = List.reverse back := ⟨_, (List.reverse_reverse text).symm⟩
  have plain : ∀ c ∈ back.head?, c ≠ '\n' ∧ c ≠ '\r' := by
    intro c member
    exact oneLine c (List.mem_reverse.mpr (List.mem_of_mem_head? member))
  cases back with
  | nil => rcases newline with _ | _ | _ <;> rfl
  | cons c back =>
    obtain ⟨feed, carriage⟩ := plain c rfl
    rcases newline with _ | _ | _ <;> simp [Text.bareLine, endingText, Newline.text, feed, carriage]

/-- The lines of a run without their terminators. -/
theorem bareLines_body {layout : Layout} (sound : layout.Sound) :
    Text.bareLines layout.body =
      layout.entries.map fun entry => formatEntry entry.indent entry.value ++ entry.tail := by
  rw [Text.bareLines, sound.lines_body, List.map_map]
  apply List.map_congr_left
  intro entry member
  exact bareLine_ended (sound.entries entry member).oneLine entry.newline

/-- Where the match of the entry pattern at an entry ends. -/
def entryPlace (indent value after : Text) : Place :=
  ⟨formatEntry indent value, after,
    [(.value, indent ++ ['-', ' ', '\''], double value), (.indent, [], indent)]⟩

/-- The entry pattern takes the indentation and the written value out of an entry. -/
theorem find?_entry {indent value after : Text} (indented : indent ≠ []) (blank : Blank indent)
    (oneLine : OneLine value) (single : after.head? ≠ some '\'') :
    entry.find? (formatEntry indent value ++ after) = some (entryPlace indent value after) := by
  have whole : formatEntry indent value ++ after =
      indent ++ (['-', ' ', '\''] ++ (double value ++ '\'' :: after)) := by
    simp [formatEntry]
  have atStart (text : Text) : textStart.ways ⟨[], text, []⟩ = [⟨[], text, []⟩] := rfl
  have dashFails : ∀ place : Place, (∃ c ∈ place.rest.head?, isIndent c = true) →
      (both (word ['-', ' ', '\'']) (both (group .value quotedValue) (one (· == '\'')))).ways
        place = [] := by
    intro place first
    rw [ways_both, ways_word_other (other_of_blank rfl first), List.flatMap_nil]
  obtain ⟨others, valueWays, -⟩ := ways_quotedValue (writtenFor_iff.mpr ⟨oneLine, rfl⟩) single
    (indent ++ ['-', ' ', '\'']) [(.indent, [], indent)]
  apply search_eq_some
  rw [whole, entry, ways_both, atStart, List.flatMap_singleton, ways_both, flatMap_ways_group,
    flatMap_ways_indentation indented blank (by simp [isIndent])]
  rotate_left
  · intro place first
    exact dashFails ⟨place.before, place.rest, _⟩ first
  simp only [List.nil_append, List.length_nil, List.drop_zero]
  rw [ways_both, ways_word, List.flatMap_singleton, ways_both, flatMap_ways_group, valueWays,
    List.flatMap_cons, List.drop_left]
  simp [ways, formatEntry, entryPlace]

/-- The entry pattern takes every line of a run apart. -/
theorem filterMap_find?_entry {layout : Layout} (sound : layout.Sound) :
    (Text.bareLines layout.body).filterMap entry.find? =
      layout.entries.map fun entry => entryPlace entry.indent entry.value entry.tail := by
  rw [bareLines_body sound, List.filterMap_map, ← List.filterMap_eq_map]
  apply List.filterMap_congr
  intro entry member
  obtain ⟨indented, blank, oneLine, tailBlank⟩ := sound.entries entry member
  have single : (entry.tail ++ []).head? ≠ some '\'' := blank_single tailBlank (by simp)
  exact find?_entry indented blank oneLine (by simpa using single)

theorem filterMap_group?_entryPlace (entries : List EntryLine) (name : Group)
    {part : EntryLine → Text × Text} (known : ∀ entry : EntryLine,
      (entryPlace entry.indent entry.value entry.tail).group? name = some (part entry)) :
    (entries.map fun entry => entryPlace entry.indent entry.value entry.tail).filterMap
      (Place.group? · name) = entries.map part := by
  rw [List.filterMap_map, ← List.filterMap_eq_map]
  exact List.filterMap_congr fun entry _ => known entry

/-- The two patterns find the block that the line readers find. -/
theorem findBlockByPatterns?_eq (content : Text) :
    findBlockByPatterns? content = findBlock? content := by
  cases found : Layout.ofContent? content with
  | none =>
    have noKey := Layout.ofContent?_eq_none_iff.mp found
    rw [findBlockByPatterns?, find?_block_eq_none noKey, findBlock?, found]
    rfl
  | some layout =>
    obtain ⟨sound, rfl⟩ := Layout.ofContent?_eq_some_iff.mp found
    have matched := find?_block_render sound
    generalize place :
      (⟨layout.head ++ layout.body, layout.foot, (.entries, layout.head, layout.body) ::
        keyGroups layout.before.flatten layout.key⟩ : Place) = stop at matched
    have key : stop.group? .key = some (layout.before.flatten, layout.key.render) := by
      subst place; rfl
    have run : stop.group? .entries = some (layout.head, layout.body) := by
      subst place; rfl
    have newline : (stop.group? .newline).map Prod.snd = some layout.key.newline.text := by
      subst place; rfl
    have keyIndent : (stop.group? .keyIndent).map Prod.snd = some layout.key.indent := by
      subst place; rfl
    have above : (Text.bareLines layout.before.flatten).length = layout.before.length := by
      rw [Text.bareLines, Text.lines_flatten sound.cut.left, List.length_map]
    have indents := filterMap_group?_entryPlace layout.entries .indent fun _ => rfl
    have values := filterMap_group?_entryPlace layout.entries .value fun _ => rfl
    have crlf : (if some layout.key.newline.text = some ['\r', '\n'] then Newline.crlf else .lf) =
        layout.key.newline := by
      cases layout.key.newline <;> rfl
    rw [findBlockByPatterns?, matched, findBlock?, found]
    simp only [Option.bind_eq_bind, Option.bind_some, Option.pure_def, key, run, newline, keyIndent,
      above, filterMap_find?_entry sound, indents, values, crlf, Option.map_some, Layout.block,
      layout.entryIndent_eq, List.headD_eq_head?_getD, Option.getD_some, List.map_map,
      Function.comp_def, halve_double]

/-- **A block is found exactly where the line grammar has one.** The two patterns and the line
readers find the same block in every content, and it is the one that the grammar describes. There is
one if and only if some line is a key line. Its span lies in the content, between characters. -/
theorem patterns_find_grammar_block (content : Text) :
    findBlockByPatterns? content = findBlock? content ∧
      (∀ block, findBlock? content = some block ↔ IsBlock content block) ∧
      ((findBlock? content).isSome ↔
        ∃ line ∈ Text.lines content, ∃ indent newline, IsKeyLine indent newline line) ∧
      ∀ block, findBlock? content = some block →
        (∃ head body foot, content = head ++ body ++ foot ∧
          block.span.start = Text.byteLength head ∧
          block.span.stop = Text.byteLength (head ++ body)) ∧
        block.span.start ≤ block.span.stop ∧ block.span.stop ≤ Text.byteLength content := by
  refine ⟨findBlockByPatterns?_eq content, fun _ => findBlock?_eq_some_iff, ?_, ?_⟩
  · have none : findBlock? content = none ↔
        ∀ line ∈ Text.lines content, ¬ ∃ indent newline, IsKeyLine indent newline line := by
      simp only [not_isKeyLine_iff, findBlock?, Option.map_eq_none_iff,
        Layout.ofContent?_eq_none_iff]
    rw [Option.isSome_iff_ne_none, ne_eq, none]
    simp
  · intro block found
    obtain ⟨head, body, foot, rfl, start, stop⟩ :=
      exists_cut_of_isBlock (findBlock?_eq_some_iff.mp found)
    refine ⟨⟨head, body, foot, rfl, start, stop⟩, ?_, ?_⟩
    · simp [start, stop]
    · simp [stop]

end ReleasePicker.Options
