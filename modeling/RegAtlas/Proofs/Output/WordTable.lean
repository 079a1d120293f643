import Mathlib.Data.List.Sort
import RegAtlas.Proofs.Output.TableRows
import RegAtlas.Proofs.Output.TableTexts
import RegAtlas.Proofs.Output.WordRows

/-!
# Tables of words

The table of the access words of a block, read from top to bottom off the lines that are written for
the block. Its rows show a word or stand for words without one. Where no two registers share a byte,
a byte shows the name of the register that takes it. There is no table where the last byte of all
is an access word and a register begins there.
-/

namespace RegAtlas.RegisterDoc

open Bounded Latex
open Text (trim)

/-! ### Texts of a row -/

/-- The texts of the row of a word, highest byte first. -/
def wordTexts (wordBytes : Nat) (b : AddressBlock) (rs : List Register) (word : Nat) :
    List String :=
  (columnTexts (rowOf wordBytes b rs word).cells).map trim

/-- The texts of the row that stands for words without one. -/
def reservedTexts (wordBytes : Nat) : List String :=
  List.replicate wordBytes "Reserved" ++ ["\\dots"]

/-- The texts of the first row. -/
def headerTexts (wordBytes : Nat) : List String :=
  ((List.range wordBytes).reverse.map fun byte =>
    bold s!"Bits [{byte * 8 + 7}:{byte * 8}]") ++ [bold "Address offset"]

/-- One for each word, and one before it where words are left out. `next` is the word that is
expected first. -/
def withGaps {α : Type} (gap : α) (row : Nat → α) (next : Nat) (words : List Nat) : List α :=
  (words.zip (next :: words.map (· + 1))).flatMap fun (w, next) =>
    (if next < w then [gap] else []) ++ [row w]

theorem columnTexts_cells (row : WordRow) : columnTexts row.cells =
    (row.bytes.reverse.map fun b => (b.map escape).getD "") ++
      ["0x" ++ Text.hexUpper 3 row.address] := by
  rw [WordRow.cells, columnTexts_append, merge, columnTexts_mergeFrom]
  rfl

theorem trim_address (width n : Nat) :
    trim ("0x" ++ Text.hexUpper width n) = "0x" ++ Text.hexUpper width n := by
  refine Text.trim_eq_self_iff.2 (Text.trimChars_of_forall_not_blank ?_)
  rw [String.toList_append]
  exact List.forall_mem_append.2 ⟨by decide, forall_mem_hexUpper (by decide) width n⟩

theorem trim_reservedTexts (wordBytes : Nat) :
    (columnTexts (reservedRow wordBytes)).map trim = reservedTexts wordBytes := by
  have hreserved : trim "Reserved" = "Reserved" := by decide
  have hdots : trim "\\dots" = "\\dots" := by decide
  have htexts : columnTexts (reservedRow wordBytes) =
      List.replicate wordBytes "Reserved" ++ ["\\dots"] := by
    rw [reservedRow, columnTexts_cons]
    rfl
  rw [htexts, List.map_append, List.map_replicate, hreserved, List.map_singleton, hdots,
    reservedTexts]

theorem trim_headerTexts (wordBytes : Nat) :
    (headerTexts wordBytes).map trim = headerTexts wordBytes := by
  have hbold (text : String) : trim (bold text) = bold text := trim_command _ _
  simp [headerTexts, hbold]

section

variable {wordBytes word byte : Nat} {b : AddressBlock} {rs : List Register} {r s : Register}

theorem length_wordTexts : (wordTexts wordBytes b rs word).length = wordBytes + 1 := by
  simp [wordTexts, columnTexts_cells, rowOf]

theorem getLast?_wordTexts : (wordTexts wordBytes b rs word).getLast? =
    some ("0x" ++ Text.hexUpper 3 (numberOf b.baseAddress + word * wordBytes)) := by
  rw [wordTexts, columnTexts_cells, List.getLast?_map, List.getLast?_concat, Option.map_some,
    trim_address]
  rfl

/-- A byte shows the last register of the list that takes it. -/
theorem getElem?_wordTexts (hbyte : byte < wordBytes) :
    (wordTexts wordBytes b rs word)[wordBytes - 1 - byte]? = some (trim
      (((rs.reverse.find? (Takes wordBytes word byte ·)).map (escape ·.name)).getD "")) := by
  have hlength : (rowOf wordBytes b rs word).bytes.length = wordBytes := by simp [rowOf]
  have hindex : wordBytes - 1 - (wordBytes - 1 - byte) = byte := by omega
  rw [wordTexts, columnTexts_cells, List.getElem?_map,
    List.getElem?_append_left (by simp [hlength]; omega), List.getElem?_map,
    List.getElem?_reverse (by omega), hlength, hindex]
  simp [rowOf, hbyte, Function.comp_def]

/-! ### Rows of a table -/

theorem map_withGaps {α β : Type} (f : α → β) (gap : α) (row : Nat → α) (next : Nat)
    (words : List Nat) :
    (withGaps gap row next words).map f = withGaps (f gap) (fun w => f (row w)) next words := by
  rw [withGaps, List.map_flatMap, withGaps]
  refine List.flatMap_congr fun (w, next) _ => ?_
  dsimp only
  split_ifs <;> rfl

theorem withGaps_cons {α : Type} (gap : α) (row : Nat → α) (next w : Nat) (words : List Nat) :
    withGaps gap row next (w :: words) =
      (if next < w then [gap] else []) ++ row w :: withGaps gap row (w + 1) words := by
  rw [withGaps, List.map_cons, List.zip_cons_cons, List.flatMap_cons, List.append_assoc]
  rfl

/-- Each word comes with the one expected in its place, which is the one behind the word before. -/
theorem wordCells_map (wordBytes next : Nat) (b : AddressBlock) (rs : List Register)
    {words : List Nat} (h : ∀ w ∈ words, w + 1 < Literal.bound) :
    wordCells wordBytes next (words.map (rowOf wordBytes b rs)) =
      .ok (withGaps (reservedRow wordBytes) (fun w => (rowOf wordBytes b rs w).cells) next
        words) := by
  induction words generalizing next with
  | nil => rfl
  | cons w words ih =>
    obtain ⟨hw, hwords⟩ := List.forall_mem_cons.1 h
    rw [List.map_cons, wordCells, word_rowOf, add_of_lt hw, ok_bind, ih _ hwords, withGaps_cons]
    rfl

/-- Behind the last word of all there is no number. -/
theorem wordCells_of_last (wordBytes next : Nat) {rows : List WordRow}
    (h : ∃ row ∈ rows, Literal.bound ≤ row.word + 1) :
    wordCells wordBytes next rows = .error .outOfRange := by
  induction rows generalizing next with
  | nil => simp at h
  | cons row rows ih =>
    rw [wordCells]
    by_cases hlast : Literal.bound ≤ row.word + 1
    · rw [add_of_le hlast]
      rfl
    · have hrows : ∃ row ∈ rows, Literal.bound ≤ row.word + 1 := by simpa [hlast] using h
      rw [add_of_lt (Nat.not_le.1 hlast), ok_bind, ih _ hrows]
      rfl

theorem byteHead_eq {byte : Nat} (h : byte * 8 + 7 < Literal.bound) :
    byteHead byte = .ok (.plain (bold s!"Bits [{byte * 8 + 7}:{byte * 8}]")) := by
  rw [byteHead, mul_of_lt (by omega), ok_bind, add_of_lt h]
  rfl

/-- A table of words with the given rows behind its header. -/
def wordTableOf (wordBytes : Nat) (rows : List (List Cell)) : Table where
  columns := List.replicate (wordBytes + 1) "c"
  rows := (headerTexts wordBytes).map .plain :: rows

theorem wordTable_eq (hbound : wordBytes * 8 + 8 < Literal.bound) (rows : List WordRow) :
    wordTable wordBytes rows = wordTableOf wordBytes <$> wordCells wordBytes 0 rows := by
  have hheads : (List.range wordBytes).reverse.mapM byteHead =
      .ok ((List.range wordBytes).reverse.map fun byte =>
        .plain (bold s!"Bits [{byte * 8 + 7}:{byte * 8}]")) := by
    refine mapM_eq_ok fun byte hbyte => byteHead_eq ?_
    rw [List.mem_reverse, List.mem_range] at hbyte
    omega
  rw [wordTable, add_of_lt (by omega), ok_bind, hheads, ok_bind]
  cases wordCells wordBytes 0 rows with
  | error e => rfl
  | ok cells => simp [wordTableOf, headerTexts, Functor.map, Except.map, bind, Except.bind, pure,
      Except.pure]

theorem wordTable_of_last (hbound : wordBytes * 8 + 8 < Literal.bound) {rows : List WordRow}
    (h : ∃ row ∈ rows, Literal.bound ≤ row.word + 1) :
    wordTable wordBytes rows = .error .outOfRange := by
  rw [wordTable_eq hbound, wordCells_of_last wordBytes 0 h]
  rfl

theorem wordTable_map (hbound : wordBytes * 8 + 8 < Literal.bound) (b : AddressBlock)
    (rs : List Register) {words : List Nat} (h : ∀ w ∈ words, w + 1 < Literal.bound) :
    wordTable wordBytes (words.map (rowOf wordBytes b rs)) =
      .ok (wordTableOf wordBytes (withGaps (reservedRow wordBytes)
        (fun w => (rowOf wordBytes b rs w).cells) 0 words)) := by
  rw [wordTable_eq hbound, wordCells_map wordBytes 0 b rs h]
  rfl

/-- The rows of a table for words, column by column. -/
theorem rows_wordTableOf (wordBytes : Nat) (b : AddressBlock) (rs : List Register)
    (words : List Nat) :
    (wordTableOf wordBytes (withGaps (reservedRow wordBytes)
        (fun w => (rowOf wordBytes b rs w).cells) 0 words)).rows.map
      (fun row => (columnTexts row).map trim) =
      headerTexts wordBytes ::
        withGaps (reservedTexts wordBytes) (wordTexts wordBytes b rs) 0 words := by
  have hheader : columnTexts ((headerTexts wordBytes).map .plain) = headerTexts wordBytes :=
    (columnTexts_map_plain id _).trans (List.map_id _)
  rw [wordTableOf, List.map_cons, hheader, trim_headerTexts, map_withGaps, trim_reservedTexts]
  rfl

/-! ### The written table -/

/-- What is written of a block with this table of words shows the texts in its first table. -/
def WordsWritten (table : Table) (texts : List (List String)) : Prop :=
  ∀ p : BlockPart, p.words = table → ∀ w, Tabular.Outside w → ∃ shown behind,
    Tabular.ofWriter (writeBlock w p) = Tabular.ofWriter w ++ shown :: behind ∧
      shown.texts = texts

section

variable {w : LineWriter} {before : List String}

theorem beginsWith_description (h : w.BeginsWith before) (d : Option String) :
    (match d with
      | some text => w.line (escape text)
      | none => w).BeginsWith before := by
  cases d with
  | none => exact h
  | some text => exact h.line _

theorem beginsWith_table (h : w.BeginsWith before) (t : Table) : (t.write w).BeginsWith before :=
  h.scope _ _ fun _ hv => hv.writeLines _

theorem beginsWith_writeItems (h : w.BeginsWith before) (lines : List String) :
    (writeItems lines w).BeginsWith before := h.scope _ _ fun _ hv => hv.writeLines lines

/-- The lines about a register stand behind those before it. -/
theorem beginsWith_writeRegister (h : w.BeginsWith before) (p : RegisterPart) :
    (writeRegister w p).BeginsWith before := by
  have hheading := h.line (command "subsection" (escape p.register.name) ++
    command "label" p.register.name)
  have hproperties := beginsWith_writeItems hheading p.properties
  have htables := (beginsWith_description hproperties p.register.description).blank.foldl
    (fun _ cells hv => (beginsWith_table hv (bitTable cells)).blank) p.bits
  rw [writeRegister]
  split
  · exact htables
  · exact (beginsWith_writeItems htables p.fields).blank

end

theorem wordsWritten {table : Table} (h : table.WellFormed) :
    WordsWritten table (table.rows.map fun row => (columnTexts row).map trim) := by
  rintro p rfl w hw
  have hheading := (adds_writeHeading "section" (c := 's') (by decide) (by decide)
    (title p.block.toLabel) p.block.toLabel w).trans_nil (Tabular.adds_blank _)
  have hwords := (hheading.trans (Tabular.adds_table p.words _)).trans_nil (Tabular.adds_blank _)
  have hregisters := (LineWriter.BeginsWith.self (p.words.write
    (writeHeading "section" (title p.block.toLabel) p.block.toLabel w).blank).blank).foldl
    (fun _ r hv => beginsWith_writeRegister hv r) p.registers
  obtain ⟨rest, hrest⟩ := hregisters
  refine ⟨p.words.tabular, Tabular.readFrom none rest, ?_, Tabular.texts_tabular h⟩
  have hread := hwords.readFrom_append hw rest
  rw [hrest] at hread
  exact hread

/-- The table of the words in which registers begin, as it is written. -/
theorem exists_wordTable {o : OutputOptions} (hwidth : o.wordWidth < Plan.widthBound)
    (h : ∀ r ∈ rs, RangeDefined b r) : ∃ (rows : List WordRow) (words : List Nat),
      wordRows o.wordBytes b rs = .ok rows ∧ words.Pairwise (· < ·) ∧
      (∀ w, w ∈ words ↔ ∃ r ∈ rs, r.start / o.wordBytes = w) ∧
      (BeginsLast o.wordBytes rs → wordTable o.wordBytes rows = .error .outOfRange) ∧
      (¬BeginsLast o.wordBytes rs → ∃ table, wordTable o.wordBytes rows = .ok table ∧
        WordsWritten table (headerTexts o.wordBytes ::
          withGaps (reservedTexts o.wordBytes) (wordTexts o.wordBytes b rs) 0 words)) := by
  have hpos := wordBytes_pos o
  have hbound := wordBytes_lt hwidth
  obtain ⟨words, hwords, hmem, hgives⟩ := exists_wordRows hpos (by omega) b rs
  have hrows := hgives.ok h
  have hlast := exists_last_word_iff hpos (by omega) hrows
  refine ⟨_, words, hrows, hwords, hmem, fun hbegins => ?_, fun hnot => ?_⟩
  · exact wordTable_of_last hbound (hlast.2 hbegins)
  · have hnumbers : ∀ w ∈ words, w + 1 < Literal.bound := by
      intro w hw
      by_contra hle
      exact hnot (hlast.1 ⟨rowOf o.wordBytes b rs w, List.mem_map_of_mem hw, Nat.not_lt.1 hle⟩)
    have htable := wordTable_map hbound b rs hnumbers
    have hwell := ensures_wordTable (ensures_wordRows _ b rs _ hrows) _ htable
    exact ⟨_, htable, rows_wordTableOf o.wordBytes b rs words ▸ wordsWritten hwell⟩

/-! ### Registers that share no byte -/

/-- The registers of a list have addresses and sizes, and share no byte. -/
@[mk_iff]
structure RangesApart (b : AddressBlock) (rs : List Register) : Prop where
  defined : ∀ r ∈ rs, RangeDefined b r
  apart : rs.Pairwise fun r s =>
    r.start + byteCount r ≤ s.start ∨ s.start + byteCount s ≤ r.start

instance (b : AddressBlock) (rs : List Register) : Decidable (RangesApart b rs) :=
  decidable_of_iff' _ (rangesApart_iff b rs)

/-- A byte that a register takes lies in the range of the register. -/
theorem Takes.range (h : Takes wordBytes word byte r) :
    r.start ≤ wordBytes * word + byte ∧ wordBytes * word + byte < r.start + byteCount r := by
  obtain ⟨hword, hlow, hhigh⟩ := h
  have hstart := Nat.div_add_mod r.start wordBytes
  rw [hword] at hstart
  omega

/-- One register at most takes a byte. -/
theorem RangesApart.eq_of_takes (h : RangesApart b rs) (hr : r ∈ rs) (hs : s ∈ rs)
    (hrbyte : Takes wordBytes word byte r) (hsbyte : Takes wordBytes word byte s) : r = s :=
  eq_of_ranges_apart h.apart hr hs hrbyte.range hsbyte.range

theorem find?_of_takes (h : RangesApart b rs) (hr : r ∈ rs)
    (htakes : Takes wordBytes word byte r) :
    rs.reverse.find? (Takes wordBytes word byte ·) = some r := by
  cases hfind : rs.reverse.find? (Takes wordBytes word byte ·) with
  | none =>
    have hnot := List.find?_eq_none.1 hfind r (List.mem_reverse.2 hr)
    exact absurd (decide_eq_true htakes) hnot
  | some s =>
    have hs := List.mem_reverse.1 (List.mem_of_find?_eq_some hfind)
    have hsbyte := List.find?_some hfind
    rw [h.eq_of_takes hr hs htakes (of_decide_eq_true hsbyte)]

/-! ### The table of a block -/

/-- Texts of a row that show the address of a word and the registers in its bytes. -/
structure ShowsWord (wordBytes : Nat) (b : AddressBlock) (rs : List Register) (word : Nat)
    (texts : List String) : Prop where
  columns : texts.length = wordBytes + 1
  address : texts.getLast? =
    some ("0x" ++ Text.hexUpper 3 (numberOf b.baseAddress + word * wordBytes))
  taken : ∀ byte < wordBytes, ∀ r ∈ rs, Takes wordBytes word byte r →
    texts[wordBytes - 1 - byte]? = some (trim (escape r.name))
  free : ∀ byte < wordBytes, (∀ r ∈ rs, ¬Takes wordBytes word byte r) →
    texts[wordBytes - 1 - byte]? = some ""

theorem showsWord_wordTexts (h : RangesApart b rs) (word : Nat) :
    ShowsWord wordBytes b rs word (wordTexts wordBytes b rs word) where
  columns := length_wordTexts
  address := getLast?_wordTexts
  taken byte hbyte r hr htakes := by
    rw [getElem?_wordTexts hbyte, find?_of_takes h hr htakes]
    rfl
  free byte hbyte hnone := by
    have hfind : rs.reverse.find? (Takes wordBytes word byte ·) = none := by
      rw [List.find?_eq_none]
      intro r hr htakes
      exact hnone r (List.mem_reverse.1 hr) (of_decide_eq_true htakes)
    rw [getElem?_wordTexts hbyte, hfind]
    rfl

/-- The words in which registers begin have one row each, in ascending order, and a row before it
where words are left out. So it is written, unless the last byte of all is a word of its own in
which a register begins. -/
theorem word_table {o : OutputOptions} (hwidth : o.wordWidth < Plan.widthBound)
    (h : RangesApart b rs) : ∃ rows, wordRows o.wordBytes b rs = .ok rows ∧
      (BeginsLast o.wordBytes rs → wordTable o.wordBytes rows = .error .outOfRange) ∧
      (¬BeginsLast o.wordBytes rs → ∃ (table : Table) (words : List Nat)
        (texts : Nat → List String), wordTable o.wordBytes rows = .ok table ∧
        words.Pairwise (· < ·) ∧
        (∀ w, w ∈ words ↔ ∃ r ∈ rs, r.start / o.wordBytes = w) ∧
        (∀ w ∈ words, ShowsWord o.wordBytes b rs w (texts w)) ∧
        WordsWritten table (headerTexts o.wordBytes ::
          withGaps (reservedTexts o.wordBytes) texts 0 words)) := by
  obtain ⟨rows, words, hrows, hwords, hmem, hlast, htable⟩ := exists_wordTable hwidth h.defined
  refine ⟨rows, hrows, hlast, fun hnot => ?_⟩
  obtain ⟨table, hok, hwritten⟩ := htable hnot
  refine ⟨table, words, wordTexts o.wordBytes b rs, hok, hwords, hmem, fun w _ => ?_, hwritten⟩
  exact showsWord_wordTexts h w

end

/-- Two registers in one word, and one behind a word without registers. -/
def controlBlock : AddressBlock where
  name := "Control"
  baseAddress := some (.ofText "0x40")
  registers := [
    { name := "DATA", offset := some (.ofText "8"), size := some (.ofText "32") },
    { name := "FIFO_LEVEL", offset := some (.ofText "2"), size := some (.ofText "8") },
    { name := "CTRL", offset := some (.ofText "0"), size := some (.ofText "12") }]

theorem word_table_controlBlock :
    32 < Plan.widthBound ∧ RangesApart controlBlock controlBlock.registers ∧
    ∃ (rows : List WordRow) (table : Table) (shown : Tabular) (first second : List String),
      wordRows 4 controlBlock controlBlock.registers = .ok rows ∧ wordTable 4 rows = .ok table ∧
      (Tabular.ofWriter (writeBlock {} ⟨controlBlock, table, []⟩)).head? = some shown ∧
      shown.texts = [headerTexts 4, first, reservedTexts 4, second] ∧
      first[0]? = some "" ∧ first[1]? = some "FIFO\\_LEVEL" ∧ first[2]? = some "CTRL" ∧
      first.getLast? = some "0x040" ∧ second.getLast? = some "0x048" := by
  have hwidth : 32 < Plan.widthBound := by decide
  have hapart : RangesApart controlBlock controlBlock.registers := by decide
  obtain ⟨rows, hrows, -, htable⟩ := word_table (o := { name := "uart" }) hwidth hapart
  obtain ⟨table, words, texts, hok, hwords, hmem, hshows, hwritten⟩ := htable (by decide)
  have hbegin : controlBlock.registers.map (fun r => r.start / 4) = [2, 0, 0] := by decide
  obtain rfl : words = [0, 2] := hwords.eq_of_mem_iff (by decide) fun w => by
    have hmap : w ∈ words ↔ w ∈ controlBlock.registers.map fun r => r.start / 4 :=
      (hmem w).trans List.mem_map.symm
    rw [hmap, hbegin]
    simp [or_comm]
  obtain ⟨shown, behind, htables, htexts⟩ := hwritten ⟨controlBlock, table, []⟩ rfl {}
    (Tabular.outside_of_shown_eq_nil rfl)
  have hhead : (Tabular.ofWriter (writeBlock {} ⟨controlBlock, table, []⟩)).head? =
      some shown := by
    rw [htables]
    rfl
  have hfirst := hshows 0 (by decide)
  have hsecond := hshows 2 (by decide)
  have hlevel := hfirst.taken 2 (by decide) controlBlock.registers[1] (by decide) (by decide)
  have hcontrol := hfirst.taken 1 (by decide) controlBlock.registers[2] (by decide) (by decide)
  have hescape : trim (escape controlBlock.registers[1].name) = "FIFO\\_LEVEL" ∧
      trim (escape controlBlock.registers[2].name) = "CTRL" := by decide +kernel
  have haddress : "0x" ++ Text.hexUpper 3 (numberOf controlBlock.baseAddress + 0 * 4) = "0x040" ∧
      "0x" ++ Text.hexUpper 3 (numberOf controlBlock.baseAddress + 2 * 4) = "0x048" := by
    decide +kernel
  refine ⟨hwidth, hapart, rows, table, shown, texts 0, texts 2, hrows, hok, hhead, htexts,
    ?_, ?_, ?_, ?_, ?_⟩
  · exact hfirst.free 3 (by decide) (by decide)
  · exact hescape.1 ▸ hlevel
  · exact hescape.2 ▸ hcontrol
  · exact haddress.1 ▸ hfirst.address
  · exact haddress.2 ▸ hsecond.address

/-- A block with a register at the last byte that 64 bits can number. -/
def lastByteBlock : AddressBlock where
  name := "block"
  baseAddress := some (.ofText "0")
  registers := [{
    name := "last"
    offset := some (.ofText "18446744073709551615")
    size := some (.ofText "8") }]

/-- Where access words are bytes, there is no number for the word behind this register, and no table
of its words. -/
theorem last_word_without_table : Plan.isWordWidth 8 = true ∧
    RangesApart lastByteBlock lastByteBlock.registers ∧
    ∃ rows, wordRows 1 lastByteBlock lastByteBlock.registers = .ok rows ∧
      wordTable 1 rows = .error .outOfRange := by
  have hapart : RangesApart lastByteBlock lastByteBlock.registers := by decide
  obtain ⟨rows, words, hrows, -, -, hlast, -⟩ := exists_wordTable
    (o := { name := "regs", wordWidth := 8 }) (by decide) hapart.defined
  exact ⟨by decide, hapart, rows, hrows, hlast (by decide)⟩

end RegAtlas.RegisterDoc
