import Mathlib.Data.List.Pairwise
import Mathlib.Logic.Function.Basic
import RegAtlas.Output.RegisterDoc
import RegAtlas.Plan.Reader
import RegAtlas.Proofs.Bounded
import RegAtlas.Proofs.Component.Layout

/-!
# Rows of access words

A block has one row for every access word that holds the first byte of a register, in ascending
order. Each byte of a row belongs to the last register of the list that takes it. No number of a row
leaves its range.
-/

namespace RegAtlas.RegisterDoc

open Bounded

/-! ### Rows and registers -/

theorem wordBytes_pos (o : OutputOptions) : 0 < o.wordBytes := Nat.le_max_right _ _

theorem wordBytes_lt {o : OutputOptions} (h : o.wordWidth < Plan.widthBound) :
    o.wordBytes * 8 + 8 < Literal.bound := by
  rw [Plan.widthBound] at h
  rw [OutputOptions.wordBytes, Literal.bound]
  omega

/-- Number of bytes of a register. -/
def byteCount (r : Register) : Nat := max ((numberOf r.size + 7) / 8) 1

theorem byteSize_eq (r : Register) : byteSize (numberOf r.size) = .ok (byteCount r) := by
  rw [byteSize, divCeil_eight (numberOf_lt_bound r.size)]
  rfl

/-- A register has an address and a size. -/
def RangeDefined (b : AddressBlock) (r : Register) : Prop :=
  b.AddressDefined r ∧ numberOf? r.size ≠ none

instance (b : AddressBlock) (r : Register) : Decidable (RangeDefined b r) :=
  inferInstanceAs (Decidable (_ ∧ _))

/-- The register begins in the word and takes the byte of it. -/
def Takes (wordBytes word byte : Nat) (r : Register) : Prop :=
  r.start / wordBytes = word ∧ r.start % wordBytes ≤ byte ∧
    byte < r.start % wordBytes + byteCount r

instance (wordBytes word byte : Nat) (r : Register) : Decidable (Takes wordBytes word byte r) :=
  inferInstanceAs (Decidable (_ ∧ _ ∧ _))

/-- The row of a word. -/
def rowOf (wordBytes : Nat) (b : AddressBlock) (rs : List Register) (word : Nat) : WordRow where
  word := word
  address := numberOf b.baseAddress + word * wordBytes
  bytes := (List.range wordBytes).map fun byte =>
    (rs.reverse.find? (Takes wordBytes word byte ·)).map (·.name)

section

variable {wordBytes word : Nat} {b : AddressBlock} {rs : List Register} {r : Register}

@[simp] theorem word_rowOf : (rowOf wordBytes b rs word).word = word := rfl

/-- The row of a word in which no register begins is empty. -/
theorem bytes_rowOf_of_forall_ne (h : ∀ r ∈ rs, r.start / wordBytes ≠ word) :
    (rowOf wordBytes b rs word).bytes = List.replicate wordBytes none := by
  refine List.eq_replicate_iff.2 ⟨by simp [rowOf], List.forall_mem_map.2 fun byte _ => ?_⟩
  rw [List.find?_eq_none.2, Option.map_none]
  intro r hr htakes
  exact h r (List.mem_reverse.1 hr) (of_decide_eq_true htakes).1

/-- The row of a word in which no register begins, computed for one that does. -/
theorem freshRow_eq (h : ∀ s ∈ rs, s.start / wordBytes ≠ r.start / wordBytes) :
    freshRow wordBytes (r.start / wordBytes) (r.start % wordBytes) (b.address r) =
      .ok (rowOf wordBytes b rs (r.start / wordBytes)) := by
  have hle : r.start % wordBytes ≤ b.address r :=
    (Nat.mod_le _ _).trans (Nat.le_add_left _ _)
  have haddress : b.address r - r.start % wordBytes =
      numberOf b.baseAddress + r.start / wordBytes * wordBytes := by
    have := Nat.div_add_mod' r.start wordBytes
    simp only [AddressBlock.address]
    omega
  rw [freshRow, sub_of_le hle, haddress, ← bytes_rowOf_of_forall_ne (b := b) h]
  rfl

/-- Writes a register into a row. -/
def writeRow (wordBytes : Nat) (r : Register) (row : WordRow) : WordRow :=
  { row with bytes := row.bytes.mapIdx fun byte name =>
      if r.start % wordBytes ≤ byte ∧ byte < r.start % wordBytes + byteCount r then some r.name
      else name }

theorem fill_eq (hpos : 0 < wordBytes) (hbound : wordBytes < Literal.bound) {row : WordRow}
    (h : row.bytes.length = wordBytes) :
    row.fill wordBytes (r.start % wordBytes) (byteCount r) r.name =
      .ok (writeRow wordBytes r row) := by
  have hfirst : r.start % wordBytes < wordBytes := Nat.mod_lt _ hpos
  have hstop : r.start % wordBytes +
      (min (addSaturating (r.start % wordBytes) (byteCount r)) wordBytes - r.start % wordBytes) ≤
        row.bytes.length := by
    rw [addSaturating]
    omega
  rw [WordRow.fill, foldlM_set _ hstop, ok_bind, writeRow]
  refine congrArg (fun bytes => Except.ok { row with bytes }) (List.ext_getElem ?_ ?_)
  · rw [List.length_mapIdx, List.length_mapIdx]
  intro byte hbyte _
  rw [List.length_mapIdx] at hbyte
  -- The bytes up to the stop are those up to the end of the register that the row has.
  have hinside : byte < r.start % wordBytes +
      (min (addSaturating (r.start % wordBytes) (byteCount r)) wordBytes - r.start % wordBytes) ↔
        byte < r.start % wordBytes + byteCount r := by
    rw [addSaturating]
    omega
  simp only [List.getElem_mapIdx, hinside]

/-- One more register only changes the row of its own word. -/
theorem rowOf_append : rowOf wordBytes b (rs ++ [r]) = Function.update (rowOf wordBytes b rs)
    (r.start / wordBytes) (writeRow wordBytes r (rowOf wordBytes b rs (r.start / wordBytes))) := by
  funext word
  obtain rfl | hne := eq_or_ne word (r.start / wordBytes)
  · rw [Function.update_self]
    simp only [rowOf, writeRow, WordRow.mk.injEq, true_and]
    apply List.ext_getElem (by simp)
    intro byte hbyte _
    simp only [List.getElem_map, List.getElem_range, List.getElem_mapIdx, List.reverse_append,
      List.reverse_singleton, List.singleton_append, List.find?_cons]
    by_cases htakes : Takes wordBytes (r.start / wordBytes) byte r
    · rw [decide_eq_true htakes, if_pos htakes.2]
      rfl
    · rw [decide_eq_false htakes, if_neg fun h => htakes ⟨rfl, h⟩]
  · rw [Function.update_of_ne hne]
    have hnot (byte : Nat) : ¬Takes wordBytes word byte r := fun h => hne h.1.symm
    simp [rowOf, hnot]

end

/-! ### Words in ascending order -/

/-- Adds a word in its place, unless it is there. -/
def insertWord (word : Nat) : List Nat → List Nat
  | [] => [word]
  | w :: words =>
    if word < w then word :: w :: words
    else if word = w then w :: words
    else w :: insertWord word words

@[simp] theorem mem_insertWord {word w : Nat} {words : List Nat} :
    w ∈ insertWord word words ↔ w = word ∨ w ∈ words := by
  fun_induction insertWord word words <;> grind

theorem pairwise_insertWord {word : Nat} {words : List Nat} (h : words.Pairwise (· < ·)) :
    (insertWord word words).Pairwise (· < ·) := by
  fun_induction insertWord word words <;> grind [List.pairwise_cons, mem_insertWord]

/-- Changing the row of a word in rows of ascending words. -/
theorem updateRow_map {row : Nat → WordRow} (hrow : ∀ w, (row w).word = w) {word : Nat}
    {fresh : Except Fault WordRow} {change : WordRow → Except Fault WordRow} {changed : WordRow}
    (hchange : change (row word) = .ok changed) {words : List Nat} (h : words.Pairwise (· < ·))
    (hfresh : word ∉ words → fresh = .ok (row word)) :
    updateRow word fresh change (words.map row) =
      .ok ((insertWord word words).map (Function.update row word changed)) := by
  -- Rows of other words stay as they are.
  have hother (ws : List Nat) (hws : word ∉ ws) :
      ws.map (Function.update row word changed) = ws.map row := by
    refine List.map_congr_left fun w hw => Function.update_of_ne ?_ _ _
    rintro rfl
    exact hws hw
  fun_induction insertWord word words with
  | case1 =>
    rw [List.map_nil, updateRow, hfresh List.not_mem_nil, ok_bind, hchange, List.map_singleton,
      Function.update_self]
    rfl
  | case2 w words hlt =>
    have hnot : word ∉ w :: words := by grind [List.pairwise_cons]
    rw [List.map_cons, List.map_cons, hother _ hnot, Function.update_self, updateRow, hrow,
      if_pos hlt, hfresh hnot, ok_bind, hchange, ok_bind]
    rfl
  | case3 words hlt =>
    have hnot : word ∉ words := by grind [List.pairwise_cons]
    rw [List.map_cons, List.map_cons, hother _ hnot, Function.update_self, updateRow, hrow,
      if_neg hlt, if_pos rfl, hchange, ok_bind]
    rfl
  | case4 w words hlt heq ih =>
    have hrest := ih h.of_cons fun hnot => hfresh (by grind)
    rw [List.map_cons, List.map_cons, Function.update_of_ne (Ne.symm heq), updateRow, hrow,
      if_neg hlt, if_neg heq, hrest, ok_bind]
    rfl

/-! ### The rows of a block -/

section

variable {wordBytes : Nat} {b : AddressBlock} {rs : List Register} {rows : List WordRow}

theorem wordRows_append (wordBytes : Nat) (b : AddressBlock) (rs : List Register) (r : Register) :
    wordRows wordBytes b (rs ++ [r]) =
      wordRows wordBytes b rs >>= (addRegister wordBytes b · r) := by
  simp [wordRows]

/-- A register that comes behind others in the list. -/
theorem gives_addRegister (hpos : 0 < wordBytes) (hbound : wordBytes < Literal.bound)
    {words : List Nat} (h : words.Pairwise (· < ·))
    (hmem : ∀ s ∈ rs, s.start / wordBytes ∈ words) (r : Register) :
    Gives (addRegister wordBytes b (words.map (rowOf wordBytes b rs)) r) (RangeDefined b r)
      ((insertWord (r.start / wordBytes) words).map (rowOf wordBytes b (rs ++ [r]))) := by
  have hlength : (rowOf wordBytes b rs (r.start / wordBytes)).bytes.length = wordBytes := by
    simp [rowOf]
  have hrows := updateRow_map (fun _ => word_rowOf) (fill_eq (r := r) hpos hbound hlength) h
    fun hnot => freshRow_eq fun s hs heq => hnot (heq ▸ hmem s hs)
  rw [← rowOf_append] at hrows
  refine (r.gives_byteOffset.bind fun _ => (b.gives_registerAddress r).bind fun _ =>
    (gives_require _ _ r.size).bind fun _ =>
      Gives.bind (.of_eq_ok (byteSize_eq r)) fun _ => .of_eq_ok hrows).congr ?_
  simp only [and_true]
  exact and_iff_right_of_imp fun h => h.1.2.1

/-- The words in which registers of a list begin have one row each. -/
theorem exists_wordRows (hpos : 0 < wordBytes) (hbound : wordBytes < Literal.bound)
    (b : AddressBlock) (rs : List Register) :
    ∃ words : List Nat, words.Pairwise (· < ·) ∧
      (∀ w, w ∈ words ↔ ∃ r ∈ rs, r.start / wordBytes = w) ∧
      Gives (wordRows wordBytes b rs) (∀ r ∈ rs, RangeDefined b r)
        (words.map (rowOf wordBytes b rs)) := by
  induction rs using List.reverseRecOn with
  | nil => exact ⟨[], .nil, by simp, (Gives.pure []).congr (by simp)⟩
  | append_singleton rs r ih =>
    obtain ⟨words, hwords, hmem, hgives⟩ := ih
    refine ⟨insertWord (r.start / wordBytes) words, pairwise_insertWord hwords, ?_, ?_⟩
    · intro w
      rw [mem_insertWord, hmem]
      simp only [List.mem_append, List.mem_singleton, or_and_right, exists_or, exists_eq_left]
      rw [or_comm, eq_comm]
    · rw [wordRows_append]
      refine (hgives.bind fun _ => gives_addRegister hpos hbound hwords
        (fun s hs => (hmem _).2 ⟨s, hs, rfl⟩) r).congr ?_
      simp only [List.forall_mem_append, List.forall_mem_singleton]

/-- The words of a block are those of the first bytes of its registers. -/
theorem mem_word_wordRows (hpos : 0 < wordBytes) (hbound : wordBytes < Literal.bound)
    (h : wordRows wordBytes b rs = .ok rows) (n : Nat) :
    n ∈ rows.map (·.word) ↔ ∃ r ∈ rs, n = r.start / wordBytes := by
  obtain ⟨words, -, hmem, hgives⟩ := exists_wordRows hpos hbound b rs
  obtain ⟨-, rfl⟩ := hgives.eq_ok_iff.1 h
  simp [Function.comp_def, hmem, eq_comm]

/-- Only the last byte of all lies in a word without a number behind it, where words are bytes. -/
theorem bound_le_word_iff (hpos : 0 < wordBytes) (r : Register) :
    Literal.bound ≤ r.start / wordBytes + 1 ↔
      wordBytes = 1 ∧ r.start = Literal.bound - 1 := by
  have hlt : r.start < Literal.bound := numberOf_lt_bound r.offset
  rw [Literal.bound] at hlt ⊢
  by_cases hone : wordBytes = 1
  · subst hone
    omega
  · -- Words of two bytes or more have half as many numbers at most.
    have hhalf : r.start / wordBytes ≤ r.start / 2 := Nat.div_le_div_left (by omega) (by decide)
    omega

/-- A register begins with the last byte of all, which is an access word of its own. -/
def BeginsLast (wordBytes : Nat) (rs : List Register) : Prop :=
  wordBytes = 1 ∧ ∃ r ∈ rs, r.start = Literal.bound - 1

instance (wordBytes : Nat) (rs : List Register) : Decidable (BeginsLast wordBytes rs) :=
  inferInstanceAs (Decidable (_ ∧ _))

theorem exists_last_word_iff (hpos : 0 < wordBytes) (hbound : wordBytes < Literal.bound)
    (h : wordRows wordBytes b rs = .ok rows) :
    (∃ row ∈ rows, Literal.bound ≤ row.word + 1) ↔ BeginsLast wordBytes rs := by
  have hmem := mem_word_wordRows hpos hbound h
  constructor
  · rintro ⟨row, hrow, hlast⟩
    obtain ⟨r, hr, hn⟩ := (hmem row.word).1 (List.mem_map_of_mem hrow)
    obtain ⟨hone, hstart⟩ := (bound_le_word_iff hpos r).1 (hn ▸ hlast)
    exact ⟨hone, r, hr, hstart⟩
  · rintro ⟨hone, r, hr, hstart⟩
    obtain ⟨row, hrow, hn⟩ := List.mem_map.1 ((hmem _).2 ⟨r, hr, rfl⟩)
    exact ⟨row, hrow, hn ▸ (bound_le_word_iff hpos r).2 ⟨hone, hstart⟩⟩

end

end RegAtlas.RegisterDoc
