import RegAtlas.Proofs.Literal
import RegAtlas.Proofs.Output.WordTable

/-!
# Reserved words

A table of words leaves out the words in which no register begins, and shows one row for those that
lie between two of its words. Read by the addresses of the rows around it, that row says of a word
that it is reserved. It is right about the words that no register reaches into from a word before.
-/

namespace RegAtlas.RegisterDoc

open Latex

/-! ### Reading a table -/

/-- The word that a row shows, by its address. -/
def wordShown? (wordBytes base : Nat) (texts : List String) : Option Nat := do
  let address ← Literal.parse? (← texts.getLast?)
  return (address - base) / wordBytes

/-- A reserved row stands for the word: the rows above it show lower words, the row below it shows a
higher one. -/
def Reserves (wordBytes base : Nat) (rows : List (List String)) (word : Nat) : Prop :=
  ∃ above below rest, rows = above ++ reservedTexts wordBytes :: below :: rest ∧
    (∀ texts ∈ above, ∀ w ∈ wordShown? wordBytes base texts, w < word) ∧
    ∃ w ∈ wordShown? wordBytes base below, word < w

/-- The word holds a byte of the register. -/
def Occupies (wordBytes : Nat) (r : Register) (word : Nat) : Prop :=
  ∃ byte, r.start ≤ byte ∧ byte < r.start + byteCount r ∧ byte / wordBytes = word

section

variable {wordBytes base word : Nat} {texts : List String} {rows : List (List String)}

theorem not_reserves_nil : ¬Reserves wordBytes base [] word := by
  rintro ⟨above, below, rest, heq, -⟩
  simp at heq

/-- The first row stands for the word, or another one below it does. -/
theorem reserves_cons : Reserves wordBytes base (texts :: rows) word ↔
    (texts = reservedTexts wordBytes ∧
      ∃ below ∈ rows.head?, ∃ w ∈ wordShown? wordBytes base below, word < w) ∨
    (∀ w ∈ wordShown? wordBytes base texts, w < word) ∧ Reserves wordBytes base rows word := by
  constructor
  · rintro ⟨above, below, rest, heq, habove, hbelow⟩
    cases above with
    | nil =>
      obtain ⟨rfl, rfl⟩ := List.cons.inj heq
      exact .inl ⟨rfl, below, rfl, hbelow⟩
    | cons first above =>
      obtain ⟨rfl, rfl⟩ := List.cons.inj heq
      rw [List.forall_mem_cons] at habove
      exact .inr ⟨habove.1, above, below, rest, rfl, habove.2, hbelow⟩
  · rintro (⟨rfl, below, hhead, hbelow⟩ | ⟨hfirst, above, below, rest, rfl, habove, hbelow⟩)
    · obtain ⟨rest, rfl⟩ := List.head?_eq_some_iff.1 hhead
      exact ⟨[], below, rest, rfl, by simp, hbelow⟩
    · exact ⟨texts :: above, below, rest, rfl, List.forall_mem_cons.2 ⟨hfirst, habove⟩, hbelow⟩

/-- A row without an address neither bounds the words below it nor stands for words unless it is a
reserved one. -/
theorem reserves_cons_of_none (hnone : wordShown? wordBytes base texts = none)
    (hne : texts ≠ reservedTexts wordBytes) :
    Reserves wordBytes base (texts :: rows) word ↔ Reserves wordBytes base rows word := by
  simp [reserves_cons, hnone, hne]

theorem wordShown?_reservedTexts : wordShown? wordBytes base (reservedTexts wordBytes) = none := by
  have hparse : Literal.parse? "\\dots" = none := by decide +kernel
  simp [wordShown?, reservedTexts, hparse]

theorem wordShown?_headerTexts : wordShown? wordBytes base (headerTexts wordBytes) = none := by
  have hparse : Literal.parse? (bold "Address offset") = none := by decide +kernel
  simp [wordShown?, headerTexts, hparse]

theorem headerTexts_ne : headerTexts wordBytes ≠ reservedTexts wordBytes := by
  have hlast : bold "Address offset" ≠ "\\dots" := by decide +kernel
  intro heq
  have := congrArg List.getLast? heq
  simp [headerTexts, reservedTexts, hlast] at this

/-- What is read from the row of a word, with the row before it if words are left out there. -/
theorem reserves_row {w next : Nat} (hshown : wordShown? wordBytes base texts = some w) :
    Reserves wordBytes base
      ((if next < w then [reservedTexts wordBytes] else []) ++ texts :: rows) word ↔
        next < w ∧ word < w ∨ w < word ∧ Reserves wordBytes base rows word := by
  have hne : texts ≠ reservedTexts wordBytes := by
    intro heq
    rw [heq, wordShown?_reservedTexts] at hshown
    cases hshown
  have hrow : Reserves wordBytes base (texts :: rows) word ↔
      w < word ∧ Reserves wordBytes base rows word := by
    simp [reserves_cons, hne, hshown]
  split_ifs with hnext
  · simp [reserves_cons, wordShown?_reservedTexts, hshown, hne, hnext]
  · simp [hrow, hnext]

/-- Rows of ascending words, each showing its own, with reserved rows between them. -/
theorem reserves_iff {texts : Nat → List String} {words : List Nat}
    (hwords : words.Pairwise (· < ·))
    (hshown : ∀ w ∈ words, wordShown? wordBytes base (texts w) = some w) {next : Nat}
    (hnext : next ≤ word) :
    Reserves wordBytes base (withGaps (reservedTexts wordBytes) texts next words) word ↔
      word ∉ words ∧ ∃ w ∈ words, word < w := by
  induction words generalizing next with
  | nil => simp [withGaps, not_reserves_nil]
  | cons w words ih =>
    obtain ⟨hlt, hwords⟩ := List.pairwise_cons.1 hwords
    obtain ⟨hw, hshown⟩ := List.forall_mem_cons.1 hshown
    rw [withGaps_cons, reserves_row hw]
    rcases Nat.lt_trichotomy word w with hbefore | rfl | hbehind
    · -- The other words of the list lie behind `w`, so none of them is the word.
      have hnot : word ∉ w :: words := by grind
      refine iff_of_true (.inl ⟨by omega, hbefore⟩) ⟨hnot, w, List.mem_cons_self, hbefore⟩
    · simp
    · rw [ih hwords hshown (by omega)]
      grind

/-! ### The table of a block -/

/-- The row of a word in which a register with an address begins reads as that word. -/
theorem wordShown?_wordTexts {b : AddressBlock} {r : Register} (hpos : 0 < wordBytes)
    (hr : b.AddressDefined r) (rs : List Register) :
    wordShown? wordBytes (numberOf b.baseAddress)
      (wordTexts wordBytes b rs (r.start / wordBytes)) = some (r.start / wordBytes) := by
  have hlt : numberOf b.baseAddress + r.start / wordBytes * wordBytes < Literal.bound := by
    have hle := Nat.div_mul_le_self r.start wordBytes
    have hbound := hr.2.2
    rw [AddressBlock.address] at hbound
    omega
  rw [wordShown?, getLast?_wordTexts]
  simp [Literal.parse?_hexUpper hlt, Nat.mul_div_cancel _ hpos]

/-- The words that a table shows to be reserved are those between its words. -/
theorem reserves_withGaps_iff {b : AddressBlock} {rs : List Register} (o : OutputOptions)
    (h : ∀ r ∈ rs, RangeDefined b r) {words : List Nat} (hwords : words.Pairwise (· < ·))
    (hmem : ∀ w, w ∈ words ↔ ∃ r ∈ rs, r.start / o.wordBytes = w) (word : Nat) :
    Reserves o.wordBytes (numberOf b.baseAddress) (headerTexts o.wordBytes ::
      withGaps (reservedTexts o.wordBytes) (wordTexts o.wordBytes b rs) 0 words) word ↔
        (∀ r ∈ rs, r.start / o.wordBytes ≠ word) ∧ ∃ r ∈ rs, word < r.start / o.wordBytes := by
  have hshown : ∀ w ∈ words, wordShown? o.wordBytes (numberOf b.baseAddress)
      (wordTexts o.wordBytes b rs w) = some w := by
    intro w hw
    obtain ⟨r, hr, rfl⟩ := (hmem w).1 hw
    exact wordShown?_wordTexts (wordBytes_pos o) (h r hr).1 rs
  rw [reserves_cons_of_none wordShown?_headerTexts headerTexts_ne,
    reserves_iff hwords hshown (Nat.zero_le word)]
  simp only [hmem]
  grind

/-- A register that lies in one word has no bytes in others. -/
theorem eq_of_occupies {r : Register} (hfits : r.start % wordBytes + byteCount r ≤ wordBytes)
    (h : Occupies wordBytes r word) : r.start / wordBytes = word := by
  obtain ⟨byte, hlow, hhigh, rfl⟩ := h
  have hstart := Nat.div_add_mod r.start wordBytes
  have hle : r.start / wordBytes ≤ byte / wordBytes := Nat.div_le_div_right hlow
  have hlt : byte / wordBytes < r.start / wordBytes + 1 := by
    apply Nat.div_lt_of_lt_mul
    rw [Nat.mul_add, Nat.mul_one]
    omega
  omega

/-- Where the words between the first words of registers are reserved, no register has bytes there
if and only if all others that registers reach into are first words or lie behind them. -/
theorem forall_not_occupies_iff {rs : List Register} {reserved : Nat → Prop}
    (hreserved : ∀ word, reserved word ↔
      (∀ r ∈ rs, r.start / wordBytes ≠ word) ∧ ∃ r ∈ rs, word < r.start / wordBytes) :
    (∀ word, reserved word → ∀ r ∈ rs, ¬Occupies wordBytes r word) ↔
      ∀ r ∈ rs, ∀ word, Occupies wordBytes r word →
        (∃ s ∈ rs, s.start / wordBytes = word) ∨ ∀ s ∈ rs, s.start / wordBytes < word := by
  constructor
  · intro hfree r hr word hoccupies
    by_cases hrow : ∃ s ∈ rs, s.start / wordBytes = word
    · exact .inl hrow
    · refine .inr fun s hs => ?_
      by_contra hnot
      have hne : s.start / wordBytes ≠ word := fun heq => hrow ⟨s, hs, heq⟩
      have hword := (hreserved word).2 ⟨fun t ht heq => hrow ⟨t, ht, heq⟩, s, hs, by omega⟩
      exact hfree word hword r hr hoccupies
  · intro hrows word hword r hr hoccupies
    obtain ⟨hnone, s, hs, hlt⟩ := (hreserved word).1 hword
    rcases hrows r hr word hoccupies with ⟨t, ht, heq⟩ | hbehind
    · exact hnone t ht heq
    · exact Nat.lt_asymm hlt (hbehind s hs)

end

/-- The table of the words of a block, as it is written, shows those words to be reserved in which
no register begins, up to the last one in which a register does. That is true if and only if
registers reach from word to word only into words with a row and behind the last row; so it is if
every register lies in one word. -/
theorem reserved_words {o : OutputOptions} (hwidth : o.wordWidth < Plan.widthBound)
    {b : AddressBlock} {rs : List Register} (h : ∀ r ∈ rs, RangeDefined b r) :
    ∃ rows, wordRows o.wordBytes b rs = .ok rows ∧
      (BeginsLast o.wordBytes rs → wordTable o.wordBytes rows = .error .outOfRange) ∧
      (¬BeginsLast o.wordBytes rs → ∃ table texts, wordTable o.wordBytes rows = .ok table ∧
        WordsWritten table texts ∧
        let reserved := Reserves o.wordBytes (numberOf b.baseAddress) texts
        (∀ word, reserved word ↔
          (∀ r ∈ rs, r.start / o.wordBytes ≠ word) ∧ ∃ r ∈ rs, word < r.start / o.wordBytes) ∧
        ((∀ word, reserved word → ∀ r ∈ rs, ¬Occupies o.wordBytes r word) ↔
          ∀ r ∈ rs, ∀ word, Occupies o.wordBytes r word →
            (∃ s ∈ rs, s.start / o.wordBytes = word) ∨
              ∀ s ∈ rs, s.start / o.wordBytes < word) ∧
        ((∀ r ∈ rs, r.start % o.wordBytes + byteCount r ≤ o.wordBytes) →
          ∀ word, reserved word → ∀ r ∈ rs, ¬Occupies o.wordBytes r word)) := by
  obtain ⟨rows, words, hrows, hwords, hmem, hlast, htable⟩ := exists_wordTable hwidth h
  refine ⟨rows, hrows, hlast, fun hnot => ?_⟩
  obtain ⟨table, hok, hwritten⟩ := htable hnot
  have hreserved := reserves_withGaps_iff o h hwords hmem
  refine ⟨table, _, hok, hwritten, hreserved, forall_not_occupies_iff hreserved, ?_⟩
  intro hfits word hword r hr hoccupies
  exact ((hreserved word).1 hword).1 r hr (eq_of_occupies (hfits r hr) hoccupies)

/-- A register of eight bytes and one of four. -/
def timerBlock (time control : String) : AddressBlock where
  name := "timer"
  baseAddress := some (.ofText "0")
  registers := [
    { name := "time", offset := some (.ofText time), size := some (.ofText "64") },
    { name := "control", offset := some (.ofText control), size := some (.ofText "32") }]

/-- The register of eight bytes is the last one. -/
theorem reserved_words_timer : 32 < Plan.widthBound ∧
    (∀ r ∈ (timerBlock "8" "0").registers, RangeDefined (timerBlock "8" "0") r) ∧
    ∃ rows table texts, wordRows 4 (timerBlock "8" "0") (timerBlock "8" "0").registers = .ok rows ∧
      wordTable 4 rows = .ok table ∧ WordsWritten table texts ∧ Reserves 4 0 texts 1 ∧
      ∀ word, Reserves 4 0 texts word →
        ∀ r ∈ (timerBlock "8" "0").registers, ¬Occupies 4 r word := by
  have hwidth : 32 < Plan.widthBound := by decide
  have hdefined : ∀ r ∈ (timerBlock "8" "0").registers,
      RangeDefined (timerBlock "8" "0") r := by decide
  obtain ⟨rows, hrows, -, htable⟩ := reserved_words (o := { name := "regs" }) hwidth hdefined
  obtain ⟨table, texts, hok, hwritten, hreserved, htrue, -⟩ := htable (by decide)
  refine ⟨hwidth, hdefined, rows, table, texts, hrows, hok, hwritten,
    (hreserved 1).2 (by decide), htrue.2 ?_⟩
  have hranges : ∀ r ∈ (timerBlock "8" "0").registers,
      r.start = 8 ∧ byteCount r = 8 ∨ r.start = 0 ∧ byteCount r = 4 := by decide
  have hbegin : (∃ s ∈ (timerBlock "8" "0").registers, s.start / 4 = 0) ∧
      (∃ s ∈ (timerBlock "8" "0").registers, s.start / 4 = 2) ∧
      ∀ s ∈ (timerBlock "8" "0").registers, s.start / 4 < 3 := by decide
  intro r hr word hoccupies
  have hword : word = 0 ∨ word = 2 ∨ word = 3 := by
    obtain ⟨byte, hlow, hhigh, hbyte⟩ := hoccupies
    have hbyte : byte / 4 = word := hbyte
    have := hranges r hr
    omega
  rcases hword with rfl | rfl | rfl
  · exact .inl hbegin.1
  · exact .inl hbegin.2.1
  · exact .inr hbegin.2.2

/-- Behind the register of eight bytes, its second word is shown to be reserved. -/
theorem occupied_word_shown_reserved :
    RangesApart (timerBlock "0" "8") (timerBlock "0" "8").registers ∧
    ∃ rows table texts, wordRows 4 (timerBlock "0" "8") (timerBlock "0" "8").registers = .ok rows ∧
      wordTable 4 rows = .ok table ∧ WordsWritten table texts ∧
      ∃ word, Reserves 4 0 texts word ∧
        ∃ r ∈ (timerBlock "0" "8").registers, Occupies 4 r word := by
  have hapart : RangesApart (timerBlock "0" "8") (timerBlock "0" "8").registers := by decide
  obtain ⟨rows, words, hrows, hwords, hmem, -, htable⟩ := exists_wordTable
    (o := { name := "regs" }) (by decide) hapart.defined
  obtain ⟨table, hok, hwritten⟩ := htable (by decide)
  have hreserved := (reserves_withGaps_iff { name := "regs" } hapart.defined hwords hmem 1).2
    (by decide)
  refine ⟨hapart, rows, table, _, hrows, hok, hwritten, 1, hreserved, _, List.mem_cons_self, 4, ?_⟩
  decide

end RegAtlas.RegisterDoc
