import ReleasePicker.Proofs.Json.Lexemes

/-!
The reader of documents accepts exactly the JSON texts of the grammar, and gives what they say. Both
directions go through the readers that take other readers: whatever relation a reader is sound and
complete for, the padded, separated, bracketed and named forms of the reader are sound and complete
for the same forms of the relation. The nesting is the only recursion left.
-/
namespace ReleasePicker.Json

/-- What the reader takes off a text is in the relation. -/
def Sound (read : Reader α) (Item : Text → α → Prop) : Prop :=
  ∀ ⦃text value rest⦄, read text = some (value, rest) →
    ∃ head, Item head value ∧ text = head ++ rest

/-- The reader takes whatever is in the relation, up to a size, if it has an end behind it. -/
def Complete (read : Reader α) (size : Nat) (Item : Text → α → Prop) (End : Text → Prop) : Prop :=
  ∀ ⦃head value rest⦄, Item head value → head.length ≤ size → End rest →
    read (head ++ rest) = some (value, rest)

/-- What may stand behind an item: a comma, a closing bracket or the end of the text. -/
def EndsItem (rest : Text) : Prop :=
  ∀ c ∈ rest.head?, c = ',' ∨ c = ']' ∨ c = '\x7d'

/-- What an item starts with: any gap, and then neither a gap nor a closing bracket. -/
def Opens (text : Text) : Prop :=
  ∃ front c rest, Gap front ∧ text = front ++ c :: rest ∧ isGap c = false ∧ c ≠ ']' ∧ c ≠ '\x7d'

theorem EndsItem.solid (ends : EndsItem rest) : ∀ c ∈ rest.head?, isGap c = false := by
  intro c member
  rcases ends c member with rfl | rfl | rfl <;> rfl

/-- Behind a number and a gap, no end of an item belongs to the number. -/
theorem EndsItem.endsNumber (ends : EndsItem rest) (gap : Gap back) :
    EndsNumber (back ++ rest) := by
  intro c member
  cases back with
  | nil => rcases ends c member with rfl | rfl | rfl <;> decide
  | cons d back =>
    cases Option.some.inj member
    rcases isGap_iff.mp (gap c (by simp)) with rfl | rfl | rfl | rfl <;> decide

/-! ## Gaps around items -/

theorem Sound.padded {read : Reader α} (sound : Sound read Item) :
    Sound (readPadded read) (Padded Item) := by
  intro text value rest found
  obtain ⟨⟨_, behind⟩, first, made⟩ := Option.bind_eq_some_iff.mp found
  cases made
  obtain ⟨head, item, whole⟩ := sound first
  obtain ⟨front, before, split⟩ := exists_gap text
  obtain ⟨back, after, left⟩ := exists_gap behind
  refine ⟨front ++ head ++ back, .intro before item after, ?_⟩
  calc text = front ++ (head ++ behind) := by rw [← whole, ← split]
    _ = front ++ (head ++ (back ++ skipGap behind)) := by rw [← left]
    _ = front ++ head ++ back ++ skipGap behind := by simp

theorem Complete.padded {read : Reader α} (complete : Complete read size Item EndsNumber)
    (solid : ∀ text value, Item text value → ∃ c rest, text = c :: rest ∧ isGap c = false) :
    Complete (readPadded read) size (Padded Item) EndsItem := by
  intro head value rest padded short ends
  obtain ⟨before, item, behind⟩ := padded
  rename_i front text back
  obtain ⟨c, more, rfl, first⟩ := solid _ _ item
  have inner : (c :: more).length ≤ size := by
    simp only [List.length_append] at short
    omega
  have skipped : skipGap (front ++ (c :: more ++ (back ++ rest))) = c :: more ++ (back ++ rest) :=
    skipGap_append before (by simpa using first)
  have read := complete item inner (ends.endsNumber behind)
  have left := skipGap_append behind ends.solid
  rw [List.append_assoc, List.append_assoc]
  simp only [readPadded, skipped, read, left, Option.bind_eq_bind, Option.bind_some,
    Option.pure_def]

/-! ## Lists of items -/

theorem Sound.items {read : Reader α} (sound : Sound read Item) {closing : Char}
    (found : readItems read closing text = some (values, rest)) :
    ∃ inside, Separated Item inside values ∧ text = inside ++ closing :: rest := by
  fun_induction readItems read closing text generalizing values with
  | case1 text value behind first =>
    cases found
    obtain ⟨head, item, rfl⟩ := sound first
    exact ⟨head, .last item, rfl⟩
  | case2 text value c behind first _ comma ih =>
    obtain ⟨⟨more, after⟩, below, made⟩ := Option.bind_eq_some_iff.mp found
    cases made
    obtain ⟨head, item, rfl⟩ := sound first
    obtain ⟨inside, separated, rfl⟩ := ih below
    rw [comma.1]
    exact ⟨head ++ ',' :: inside, .cons item separated, by simp⟩
  | case3 => cases found
  | case4 => cases found

theorem Complete.items {read : Reader α} (complete : Complete read size Item EndsItem)
    {closing : Char} (bracket : closing = ']' ∨ closing = '\x7d')
    (separated : Separated Item inside values) (short : inside.length ≤ size) (rest : Text) :
    readItems read closing (inside ++ closing :: rest) = some (values, rest) := by
  have noComma : ',' ≠ closing := by rcases bracket with rfl | rfl <;> decide
  induction separated with
  | last item =>
    have ends : EndsItem (closing :: rest) := by simpa [EndsItem] using .inr bracket
    rw [readItems, complete item short ends]
    simp
  | @cons text value more values item _ ih =>
    simp only [List.length_append, List.length_cons] at short
    have ends : EndsItem (',' :: (more ++ closing :: rest)) := by simp [EndsItem]
    have first := complete item (by omega) ends
    have below := ih (by omega)
    have shorter : (more ++ closing :: rest).length <
        (text ++ ',' :: more ++ closing :: rest).length := by
      simp only [List.length_append, List.length_cons]
      omega
    rw [readItems]
    rw [List.append_assoc, List.cons_append] at shorter ⊢
    simp only [first, noComma, shorter, below, and_self, ↓reduceIte, Option.bind_eq_bind,
      Option.bind_some, Option.pure_def]

theorem Sound.bracketed {read : Reader α} (sound : Sound read Item) {opening closing : Char}
    (found : readBracketed read closing text = some (values, rest)) :
    ∃ inside, Bracketed opening closing Item (opening :: inside ++ [closing]) values ∧
      text = inside ++ closing :: rest := by
  unfold readBracketed at found
  split at found
  · rename_i closed
    cases found
    obtain ⟨behind, left⟩ := List.head?_eq_some_iff.mp closed
    obtain ⟨front, gap, whole⟩ := exists_gap text
    refine ⟨front, .empty gap, ?_⟩
    rw [left] at whole
    simpa [left] using whole
  · obtain ⟨inside, separated, rfl⟩ := sound.items found
    exact ⟨inside, .items separated, rfl⟩

theorem Separated.opens (separated : Separated Item inside values)
    (opens : ∀ text value, Item text value → Opens text) : Opens inside := by
  cases separated with
  | last item => exact opens _ _ item
  | cons item rest =>
    obtain ⟨front, c, more, gap, rfl, first⟩ := opens _ _ item
    exact ⟨front, c, _, gap, by rw [List.append_assoc, List.cons_append], first⟩

theorem Complete.bracketed {read : Reader α} (complete : Complete read size Item EndsItem)
    (opens : ∀ text value, Item text value → Opens text) {opening closing : Char}
    (bracket : closing = ']' ∨ closing = '\x7d')
    (bracketed : Bracketed opening closing Item head values) (short : head.length ≤ size + 1)
    (rest : Text) :
    ∃ inside, head = opening :: inside ++ [closing] ∧
      readBracketed read closing (inside ++ closing :: rest) = some (values, rest) := by
  cases bracketed with
  | @empty text gap =>
    have solid : isGap closing = false := by rcases bracket with rfl | rfl <;> rfl
    have skipped : skipGap (text ++ closing :: rest) = closing :: rest :=
      skipGap_append gap (by simpa using solid)
    exact ⟨text, rfl, by simp [readBracketed, skipped]⟩
  | @items text _ separated =>
    simp only [List.length_append, List.length_cons, List.length_nil] at short
    refine ⟨text, rfl, ?_⟩
    have open' : ¬ (skipGap (text ++ closing :: rest)).head? = some closing := by
      obtain ⟨front, c, more, gap, rfl, solid, square, curly⟩ := separated.opens opens
      rw [List.append_assoc, skipGap_append gap (by simpa using solid)]
      rintro same
      cases Option.some.inj same
      exact bracket.elim square curly
    rw [readBracketed, if_neg open']
    exact complete.items bracket separated (by omega) rest

/-! ## Members of objects -/

theorem Sound.member {read : Reader α} (sound : Sound read Item) :
    Sound (readMember read) (Member Item) := by
  intro text member rest found
  unfold readMember at found
  split at found
  · rename_i behind quote
    obtain ⟨⟨name, after⟩, named, following⟩ := Option.bind_eq_some_iff.mp found
    obtain ⟨body, spelled, rfl⟩ := readString_eq_some_iff.mp named
    dsimp only at following
    split at following
    · rename_i value colon
      obtain ⟨⟨_, left⟩, last, made⟩ := Option.bind_eq_some_iff.mp following
      cases made
      obtain ⟨inner, item, rfl⟩ := sound.padded last
      obtain ⟨front, before, whole⟩ := exists_gap text
      obtain ⟨back, between, split⟩ := exists_gap after
      refine ⟨_, .intro before spelled between item, ?_⟩
      rw [whole, quote, split, colon]
      simp
    · cases following
  · cases found

theorem Complete.member {read : Reader α} (complete : Complete read size Item EndsNumber)
    (solid : ∀ text value, Item text value → ∃ c rest, text = c :: rest ∧ isGap c = false) :
    Complete (readMember read) size (Member Item) EndsItem := by
  intro head member rest spelled short ends
  obtain ⟨before, named, between, item⟩ := spelled
  rename_i front body name back text value
  simp only [List.length_append, List.length_cons] at short
  have quote : skipGap (front ++ '"' :: (body ++ '"' :: (back ++ ':' :: (text ++ rest)))) =
      '"' :: (body ++ '"' :: (back ++ ':' :: (text ++ rest))) :=
    skipGap_append before (by simp [isGap])
  have colon : skipGap (back ++ ':' :: (text ++ rest)) = ':' :: (text ++ rest) :=
    skipGap_append between (by simp [isGap])
  have nameRead : readString (body ++ '"' :: (back ++ ':' :: (text ++ rest))) =
      some (name, back ++ ':' :: (text ++ rest)) :=
    readString_eq_some_iff.mpr ⟨body, named, rfl⟩
  have valueRead := complete.padded solid item (by omega) ends
  have whole : front ++ '"' :: body ++ '"' :: back ++ ':' :: text ++ rest =
      front ++ '"' :: (body ++ '"' :: (back ++ ':' :: (text ++ rest))) := by
    simp
  rw [whole]
  simp only [readMember, quote, nameRead, colon, valueRead, Option.bind_eq_bind, Option.bind_some,
    Option.pure_def]

theorem Member.opens {Item : Text → α → Prop} {member : Text × α}
    (spelled : Member Item text member) : Opens text := by
  obtain ⟨before, named, between, item⟩ := spelled
  rename_i front body name back inner value
  exact ⟨front, '"', body ++ '"' :: back ++ ':' :: inner, before, by simp, rfl, by decide,
    by decide⟩

/-! ## Words -/

theorem mem_words_iff {word : Text} {document : Document} :
    (word, document) ∈ words ↔
      (word = "null".toList ∧ document = .null) ∨ (word = "true".toList ∧ document = .flag true) ∨
        (word = "false".toList ∧ document = .flag false) := by
  simp only [words, List.mem_cons, Prod.mk.injEq, List.not_mem_nil, or_false]

theorem word_of_readWord {text rest : Text} {document : Document}
    (read : readWord text = some (document, rest)) :
    ∃ word, (word, document) ∈ words ∧ text = word ++ rest := by
  obtain ⟨⟨word, said⟩, known, taken⟩ := List.exists_of_findSome?_eq_some read
  obtain ⟨leading, made⟩ := Option.ite_none_right_eq_some.mp taken
  cases made
  obtain ⟨behind, rfl⟩ := List.isPrefixOf_iff_prefix.mp leading
  exact ⟨word, known, by simp⟩

theorem readWord_of_word {word : Text} {document : Document} (known : (word, document) ∈ words)
    (rest : Text) : readWord (word ++ rest) = some (document, rest) := by
  rcases mem_words_iff.mp known with ⟨rfl, rfl⟩ | ⟨rfl, rfl⟩ | ⟨rfl, rfl⟩ <;>
    simp [readWord, words]

/-- No word starts as a number does. -/
theorem readWord_of_number {text : Text} {value : Rat} (spelled : SpellsNumber text value)
    (rest : Text) : readWord (text ++ rest) = none := by
  obtain ⟨c, more, rfl, first⟩ := spelled.exists_head
  have other : c ≠ 'n' ∧ c ≠ 't' ∧ c ≠ 'f' := by
    refine ⟨?_, ?_, ?_⟩ <;> rintro rfl <;> simp at first
  simp [readWord, words, Ne.symm other.1, Ne.symm other.2.1, Ne.symm other.2.2]

/-! ## Documents -/

/-- What a document starts with. Its first character tells which kind it is. -/
theorem Spells.exists_head {text : Text} {document : Document} (spelled : Spells text document) :
    ∃ c rest, text = c :: rest ∧ isGap c = false ∧ c ≠ ']' ∧ c ≠ '\x7d' := by
  cases spelled with
  | word known =>
    rcases mem_words_iff.mp known with ⟨rfl, -⟩ | ⟨rfl, -⟩ | ⟨rfl, -⟩ <;>
      exact ⟨_, _, rfl, rfl, by decide, by decide⟩
  | number spelled =>
    obtain ⟨c, rest, rfl, first⟩ := spelled.exists_head
    refine ⟨c, rest, rfl, ?_, ?_, ?_⟩
    · by_contra gap
      rw [Bool.not_eq_false, isGap_iff] at gap
      rcases gap with rfl | rfl | rfl | rfl <;> simp at first
    · rintro rfl; simp at first
    · rintro rfl; simp at first
  | text => exact ⟨_, _, rfl, rfl, by decide, by decide⟩
  | list spelled => cases spelled <;> exact ⟨_, _, rfl, rfl, by decide, by decide⟩
  | object spelled => cases spelled <;> exact ⟨_, _, rfl, rfl, by decide, by decide⟩

theorem Spells.solid (text : Text) (document : Document) (spelled : Spells text document) :
    ∃ c rest, text = c :: rest ∧ isGap c = false := by
  obtain ⟨c, rest, whole, solid, -⟩ := spelled.exists_head
  exact ⟨c, rest, whole, solid⟩

theorem Padded.opens (text : Text) (document : Document) (padded : Padded Spells text document) :
    Opens text := by
  obtain ⟨before, item, behind⟩ := padded
  obtain ⟨c, rest, rfl, first⟩ := item.exists_head
  exact ⟨_, c, _, before, by rw [List.append_assoc, List.cons_append], first⟩

/-- What is enclosed is read from behind the opening mark on, with the closing mark still ahead. -/
theorem enclosed_append (opening closing : Char) (inside rest : Text) :
    opening :: inside ++ [closing] ++ rest = opening :: (inside ++ closing :: rest) := by
  simp

/-- Words and numbers are told apart from the rest by their first character. -/
theorem readDocument_other {text : Text} (bound : Nat) (first : c ≠ '"' ∧ c ≠ '[' ∧ c ≠ '\x7b')
    (starts : text.head? = some c) :
    readDocument (bound + 1) text =
      match readWord text with
      | some word => some word
      | none => (readNumber text).map fun (value, rest) => (.number value, rest) := by
  obtain ⟨rest, rfl⟩ := List.head?_eq_some_iff.mp starts
  rw [readDocument]
  · cases readWord (c :: rest) with
    | some => rfl
    | none => cases readNumber (c :: rest) <;> rfl
  · rintro _ same; exact first.1 (List.cons.inj same).1
  · rintro _ same; exact first.2.1 (List.cons.inj same).1
  · rintro _ same; exact first.2.2 (List.cons.inj same).1

/-- Whatever the bound on the nesting is, what is read is a document of the grammar. -/
theorem sound_readDocument (bound : Nat) : Sound (readDocument bound) Spells := by
  induction bound with
  | zero => intro text document rest found; cases found
  | succ bound ih =>
    intro text document rest found
    unfold readDocument at found
    split at found
    · obtain ⟨⟨value, behind⟩, read, made⟩ := Option.bind_eq_some_iff.mp found
      cases made
      obtain ⟨body, spelled, rfl⟩ := readString_eq_some_iff.mp read
      exact ⟨_, .text spelled, by simp⟩
    · obtain ⟨⟨items, behind⟩, read, made⟩ := Option.bind_eq_some_iff.mp found
      cases made
      obtain ⟨inside, spelled, rfl⟩ := ih.padded.bracketed read
      exact ⟨_, .list spelled, by simp⟩
    · obtain ⟨⟨members, behind⟩, read, made⟩ := Option.bind_eq_some_iff.mp found
      cases made
      obtain ⟨inside, spelled, rfl⟩ := ih.member.bracketed read
      exact ⟨_, .object spelled, by simp⟩
    · split at found
      · rename_i read
        cases found
        obtain ⟨word, known, rfl⟩ := word_of_readWord read
        exact ⟨word, .word known, rfl⟩
      · obtain ⟨⟨value, behind⟩, read, made⟩ := Option.bind_eq_some_iff.mp found
        cases made
        obtain ⟨head, spelled, rfl⟩ := spells_of_readNumber read
        exact ⟨head, .number spelled, rfl⟩

/-- A document is read that is no longer than the bound on the nesting. -/
theorem complete_readDocument (bound : Nat) :
    Complete (readDocument bound) bound Spells EndsNumber := by
  induction bound with
  | zero =>
    intro head document rest spelled short
    obtain ⟨c, more, rfl, -⟩ := spelled.exists_head
    cases short
  | succ bound ih =>
    intro head document rest spelled short ends
    cases spelled with
    | word known =>
      have read := readWord_of_word known rest
      rcases mem_words_iff.mp known with ⟨rfl, -⟩ | ⟨rfl, -⟩ | ⟨rfl, -⟩ <;>
        rw [readDocument_other bound (by decide) rfl, read]
    | number spelled =>
      have noWord := readWord_of_number spelled rest
      have read := readNumber_of_spells spelled ends
      obtain ⟨c, more, rfl, first⟩ := spelled.exists_head
      have other : c ≠ '"' ∧ c ≠ '[' ∧ c ≠ '\x7b' := by
        refine ⟨?_, ?_, ?_⟩ <;> rintro rfl <;> simp at first
      rw [readDocument_other bound other rfl, noWord, read]
      rfl
    | @text body value spelled =>
      have read : readString (body ++ '"' :: rest) = some (value, rest) :=
        readString_eq_some_iff.mpr ⟨body, spelled, rfl⟩
      rw [enclosed_append, readDocument, read]
      rfl
    | list spelled =>
      obtain ⟨inside, rfl, read⟩ :=
        (ih.padded Spells.solid).bracketed Padded.opens (.inl rfl) spelled short rest
      rw [enclosed_append, readDocument, read]
      rfl
    | object spelled =>
      obtain ⟨inside, rfl, read⟩ :=
        (ih.member Spells.solid).bracketed (fun _ _ => Member.opens) (.inr rfl) spelled short rest
      rw [enclosed_append, readDocument, read]
      rfl

/-- A text is read exactly if it is a JSON text of the grammar, as what the grammar has it say. -/
theorem read?_eq_some_iff {text : Text} {document : Document} :
    read? text = some document ↔ Padded Spells text document := by
  constructor
  · intro read
    unfold read? at read
    split at read
    · rename_i found
      cases read
      obtain ⟨head, padded, rfl⟩ := (sound_readDocument _).padded found
      rwa [List.append_nil]
    · cases read
  · intro padded
    have complete := (complete_readDocument text.length).padded Spells.solid
    have ends : EndsItem [] := by simp [EndsItem]
    have read := complete padded (Nat.le_refl _) ends
    rw [List.append_nil] at read
    rw [read?, read]

end ReleasePicker.Json
