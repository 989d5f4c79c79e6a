import ReleasePicker.Proofs.Options.BlockReading
import Mathlib.Algebra.Group.Nat.Even
import Mathlib.Algebra.Ring.Parity

/-!
Quoting as a bijection. Values on one line correspond to the texts on one line whose runs of quotes
are all even (`EvenQuoteRuns`): doubling leads from the first to the second and halving leads back.
The patterns keep to these texts. The entry pattern takes a formatted entry apart exactly where it
was put together, and the block pattern accepts a line only if the text between its outer quotes is
one of them.
-/
namespace ReleasePicker.Options

open Pattern
open Text (Terminated)

/-- Every run of quotes that cannot be extended, to the left or to the right, has even length. -/
def EvenQuoteRuns (text : Text) : Prop :=
  ∀ front count rest, text = front ++ List.replicate count '\'' ++ rest →
    front.getLast? ≠ some '\'' → rest.head? ≠ some '\'' → Even count

/-! ## Runs of quotes -/

theorem evenQuoteRuns_nil : EvenQuoteRuns [] := by
  intro front count rest whole _ _
  have none : count = 0 := by simp_all
  exact none ▸ Even.zero

theorem getLast?_cons_ne {front : Text} (plain : c ≠ '\'') (last : front.getLast? ≠ some '\'') :
    (c :: front).getLast? ≠ some '\'' := by
  cases front with
  | nil => simpa using plain
  | cons d front => simpa using last

/-- A character that is no quote belongs to no run. -/
theorem evenQuoteRuns_cons {text : Text} (plain : c ≠ '\'') :
    EvenQuoteRuns (c :: text) ↔ EvenQuoteRuns text := by
  constructor
  · intro even front count rest whole last first
    exact even (c :: front) count rest (by simp [whole]) (getLast?_cons_ne plain last) first
  · intro even front count rest whole last first
    cases front with
    | nil =>
      cases count with
      | zero => exact Even.zero
      | succ count => exact absurd (List.cons.inj whole).1 plain
    | cons d front =>
      have inner := (List.cons.inj whole).2
      refine even front count rest inner (fun quote => last ?_) first
      rw [List.getLast?_cons, quote]
      rfl

/-- A pair of quotes in front makes a run longer by two, or is a run of its own. -/
theorem evenQuoteRuns_pair {text : Text} :
    EvenQuoteRuns ('\'' :: '\'' :: text) ↔ EvenQuoteRuns text := by
  constructor
  · intro even front count rest whole last first
    cases front with
    | nil =>
      have longer := even [] (count + 2) rest (by simp [whole, List.replicate_succ]) last first
      exact (Nat.even_add.mp longer).mpr even_two
    | cons d front =>
      have longer := even ('\'' :: '\'' :: d :: front) count rest (by simp [whole])
      exact longer (by simpa using last) first
  · intro even front count rest whole last first
    match front, count with
    | [], 0 => exact Even.zero
    | [], 1 =>
      -- the second quote would stand right behind the run
      have behind : '\'' :: text = rest := by simpa using whole
      exact absurd (by simp [← behind]) first
    | [], count + 2 =>
      have shorter : text = [] ++ List.replicate count '\'' ++ rest := by
        simpa [List.replicate_succ] using whole
      exact (even [] count rest shorter (by simp) first).add even_two
    | [d], _ =>
      obtain ⟨rfl, -⟩ := List.cons.inj whole
      exact absurd rfl last
    | d :: e :: front, count =>
      have inner : text = front ++ List.replicate count '\'' ++ rest := by
        simpa using (List.cons.inj (List.cons.inj whole).2).2
      refine even front count rest inner (fun quote => last ?_) first
      rw [List.getLast?_cons_cons, List.getLast?_cons, quote]
      rfl

/-- A lone quote is a run of its own. -/
theorem not_evenQuoteRuns_lone {text : Text} (single : text.head? ≠ some '\'') :
    ¬ EvenQuoteRuns ('\'' :: text) := by
  intro even
  have odd := even [] 1 text rfl (by simp) single
  exact absurd odd (by decide)

/-! ## Quoted texts -/

/-- The texts that are written for a value are those on one line whose runs of quotes are even. -/
theorem exists_writtenFor_iff {quoted : Text} :
    (∃ value, WrittenFor quoted value) ↔ OneLine quoted ∧ EvenQuoteRuns quoted := by
  constructor
  · rintro ⟨value, written⟩
    induction written with
    | nil => exact ⟨by simp [OneLine], evenQuoteRuns_nil⟩
    | pair _ ih => exact ⟨by simpa [OneLine] using ih.1, evenQuoteRuns_pair.mpr ih.2⟩
    | plain single feed carriage _ ih =>
      exact ⟨by simpa [OneLine, feed, carriage] using ih.1, (evenQuoteRuns_cons single).mpr ih.2⟩
  · rintro ⟨oneLine, even⟩
    induction quoted using halve.induct with
    | case1 rest ih =>
      obtain ⟨value, written⟩ :=
        ih (fun c member => oneLine c (by simp [member])) (evenQuoteRuns_pair.mp even)
      exact ⟨_, .pair written⟩
    | case2 c rest notPair ih =>
      by_cases quote : c = '\''
      · have single : rest.head? ≠ some '\'' := by
          intro second
          obtain ⟨more, rfl⟩ := List.head?_eq_some_iff.mp second
          exact notPair more quote rfl
        exact absurd (quote ▸ even) (not_evenQuoteRuns_lone single)
      · obtain ⟨value, written⟩ :=
          ih (fun d member => oneLine d (by simp [member])) ((evenQuoteRuns_cons quote).mp even)
        obtain ⟨feed, carriage⟩ := oneLine c (by simp)
        exact ⟨_, .plain quote feed carriage written⟩
    | case3 => exact ⟨[], .nil⟩

/-- Halving the quotes of such a text gives a value on one line, and doubling them there gives the
text again. -/
theorem double_halve {quoted : Text} (oneLine : OneLine quoted) (even : EvenQuoteRuns quoted) :
    OneLine (halve quoted) ∧ double (halve quoted) = quoted := by
  obtain ⟨value, written⟩ := exists_writtenFor_iff.mpr ⟨oneLine, even⟩
  obtain ⟨valueOneLine, rfl⟩ := writtenFor_iff.mp written
  rw [halve_double]
  exact ⟨valueOneLine, rfl⟩

/-! ## Lines of the block pattern -/

/-- What stands between the quotes of an entry and what stands behind it, terminator included. -/
def quotedLine (indent quoted tail : Text) (newline : Option Newline) : Text :=
  indent ++ ['-', ' ', '\''] ++ quoted ++ ['\''] ++ tail ++ endingText newline

theorem lines_quotedLine {indent quoted tail rest : Text} {newline : Option Newline}
    (blank : Blank indent) (feedless : '\n' ∉ quoted) (tailBlank : Blank tail)
    (last : newline = none → rest = []) :
    Text.lines (quotedLine indent quoted tail newline ++ rest) =
      quotedLine indent quoted tail newline :: Text.lines rest := by
  have noFeed : '\n' ∉ indent ++ ['-', ' ', '\''] ++ quoted ++ ['\''] ++ tail := by
    simp [(oneLine_of_blank blank).feed_not_mem, feedless,
      (oneLine_of_blank tailBlank).feed_not_mem]
  cases newline with
  | none =>
    rw [last rfl, List.append_nil, Text.lines_open (by simp [quotedLine])
      (by simpa [quotedLine, endingText] using noFeed)]
    rfl
  | some newline => exact Text.lines_terminated (newline.terminated noFeed) rest

/-- A text is cut in one way at its last quote. -/
theorem eq_of_last_quote {front behind quoted after : Text} (noQuote : '\'' ∉ behind)
    (quoteless : '\'' ∉ after) (same : front ++ '\'' :: behind = quoted ++ '\'' :: after) :
    front = quoted := by
  rcases List.append_eq_append_iff.mp same with ⟨more, rfl, rest⟩ | ⟨more, rfl, rest⟩
  · cases more with
    | nil => simp
    | cons c more =>
      obtain ⟨-, rfl⟩ := List.cons.inj rest
      simp at noQuote
  · cases more with
    | nil => simp
    | cons c more =>
      obtain ⟨-, rfl⟩ := List.cons.inj rest
      simp at quoteless

theorem quote_not_mem_tail {tail : Text} (blank : Blank tail) (newline : Option Newline) :
    '\'' ∉ tail ++ endingText newline := by
  intro member
  rcases List.mem_append.mp member with member | member
  · rcases blank _ member with same | same <;> cases same
  · rcases newline with _ | _ | _ <;> simp [endingText, Newline.text] at member

/-- An indented line in outer quotes has its indentation and what is between the quotes in one
way. -/
theorem quoted_eq_of_quotedLine_eq {indent quoted tail : Text} {newline : Option Newline}
    {entry : EntryLine} (blank : Blank indent) (tailBlank : Blank tail) (sound : entry.Sound)
    (same : entry.render = quotedLine indent quoted tail newline) :
    quoted = double entry.value := by
  obtain ⟨-, entryBlank, -, entryTailBlank⟩ := sound
  have beforeDash : ∀ rest, ∀ c ∈ ('-' :: rest : Text).head?, Text.isIndent c = false := by
    simp [Text.isIndent]
  have entryWhole : entry.render = entry.indent ++ '-' :: ' ' :: '\'' ::
      (double entry.value ++ '\'' :: (entry.tail ++ endingText entry.newline)) := by
    simp [EntryLine.render, formatEntry, endingText]
  have whole : quotedLine indent quoted tail newline =
      indent ++ '-' :: ' ' :: '\'' :: (quoted ++ '\'' :: (tail ++ endingText newline)) := by
    simp [quotedLine]
  have behind := congrArg (List.dropWhile Text.isIndent) same
  rw [entryWhole, whole, dropWhile_blank entryBlank (beforeDash _),
    dropWhile_blank blank (beforeDash _)] at behind
  have inner : double entry.value ++ '\'' :: (entry.tail ++ endingText entry.newline) =
      quoted ++ '\'' :: (tail ++ endingText newline) := by
    simpa using behind
  exact (eq_of_last_quote (quote_not_mem_tail entryTailBlank _) (quote_not_mem_tail tailBlank _)
    inner).symm

/-- The entry lines of the block pattern hold even runs of quotes, and no line break, between their
outer quotes. -/
theorem ways_quotedLine_iff {indent quoted tail rest : Text} {newline : Option Newline}
    (indented : indent ≠ []) (blank : Blank indent) (feedless : '\n' ∉ quoted)
    (tailBlank : Blank tail) (last : newline = none → rest = []) (before : Text)
    (groups : List (Group × Text × Text)) :
    entryLine.ways ⟨before, quotedLine indent quoted tail newline ++ rest, groups⟩ ≠ [] ↔
      OneLine quoted ∧ EvenQuoteRuns quoted := by
  rw [← exists_writtenFor_iff]
  constructor
  · intro matched
    obtain ⟨stop, way⟩ := List.exists_mem_of_ne_nil _ matched
    obtain ⟨entry, sound, whole, entryLast⟩ := mem_ways_entryLine way
    -- both are the first line of the text
    have first := EntryLine.lines_render sound entryLast
    rw [← whole, lines_quotedLine blank feedless tailBlank last] at first
    have same := quoted_eq_of_quotedLine_eq blank tailBlank sound (List.cons.inj first).1.symm
    exact ⟨entry.value, writtenFor_iff.mpr ⟨sound.2.2.1, same⟩⟩
  · rintro ⟨value, written⟩
    obtain ⟨oneLine, rfl⟩ := writtenFor_iff.mp written
    have sound : EntryLine.Sound ⟨indent, value, tail, newline⟩ :=
      ⟨indented, blank, oneLine, tailBlank⟩
    have way := ways_entryLine sound last before groups
    have whole : EntryLine.render ⟨indent, value, tail, newline⟩ =
        quotedLine indent (double value) tail newline := by
      simp [EntryLine.render, formatEntry, quotedLine, endingText]
    rw [← whole, way]
    simp

/-! ## Quoting -/

/-- **Quoting is a bijection that the patterns read.** The entry pattern takes the indentation and
the quoted value out of a formatted entry, whatever blanks are behind it, and the value comes back
from its quoted form. Every text on one line with even runs of quotes is the quoted form of a value
on one line, and the block pattern accepts no other text between the outer quotes of a line. -/
theorem quoting_bijective :
    (∀ indent value tail, indent ≠ [] → Blank indent → OneLine value → Blank tail →
      (∃ found, entry.find? (formatEntry indent value ++ tail) = some found ∧
        found.group? .indent = some ([], indent) ∧
        found.group? .value = some (indent ++ ['-', ' ', '\''], double value)) ∧
      OneLine (double value) ∧ EvenQuoteRuns (double value) ∧ halve (double value) = value) ∧
    (∀ quoted, OneLine quoted → EvenQuoteRuns quoted →
      OneLine (halve quoted) ∧ double (halve quoted) = quoted) ∧
    ∀ indent quoted tail newline before after groups, indent ≠ [] → Blank indent →
      '\n' ∉ quoted → Blank tail → (newline = none → after = []) →
      (entryLine.ways ⟨before, indent ++ ['-', ' ', '\''] ++ quoted ++ ['\''] ++ tail ++
          endingText newline ++ after, groups⟩ ≠ [] ↔
        OneLine quoted ∧ EvenQuoteRuns quoted) := by
  refine ⟨?format, fun quoted => double_halve, ?block⟩
  case format =>
    intro indent value tail indented blank oneLine tailBlank
    have single : tail.head? ≠ some '\'' := by
      rw [← List.append_nil tail]
      exact blank_single tailBlank (by simp)
    have found := find?_entry indented blank oneLine single
    have written : WrittenFor (double value) value := writtenFor_iff.mpr ⟨oneLine, rfl⟩
    obtain ⟨quotedOneLine, even⟩ := exists_writtenFor_iff.mp ⟨value, written⟩
    exact ⟨⟨_, found, rfl, rfl⟩, quotedOneLine, even, halve_double value⟩
  case block =>
    intro indent quoted tail newline before after groups indented blank feedless tailBlank last
    exact ways_quotedLine_iff indented blank feedless tailBlank last before groups

/-- Runs of quotes at both ends of a value and inside it, and a run that is cut in the middle of a
pair. -/
theorem quoting_bijective_runs :
    (∃ found,
        entry.find? (formatEntry "\t ".toList "''it''s'".toList ++ " \t".toList) = some found ∧
        found.group? .value = some ("\t - '".toList, "''''it''''s''".toList)) ∧
      double (halve "''''it''''s''".toList) = "''''it''''s''".toList ∧
      ¬ EvenQuoteRuns "it'''s".toList := by
  obtain ⟨format, unquoted, block⟩ := quoting_bijective
  obtain ⟨⟨found, read, -, captured⟩, oneLine, even, -⟩ :=
    format "\t ".toList "''it''s'".toList " \t".toList (by decide) (by decide) (by decide)
      (by decide)
  have odd := block [' '] "it'''s".toList [] (some .crlf) [] "x".toList [] (by decide) (by decide)
    (by decide) (by decide) (by simp)
  refine ⟨⟨found, read, captured⟩, (unquoted _ oneLine even).2, fun even => ?_⟩
  exact odd.mpr ⟨by decide, even⟩ rfl

end ReleasePicker.Options
