import RegAtlas.Proofs.Output.BitCells
import RegAtlas.Proofs.Output.WordTable

/-!
# Documents that leave the range of numbers

A document is computed and written in 64 bits, with every operation on numbers and every index. It
leaves their range if and only if it gets to a register whose first byte is the last one that 64
bits can number, where access words are bytes: there is no number for the word behind it.
-/

namespace RegAtlas

open Bounded

/-! ### Faults of a component -/

theorem stays_number (r : Reference) (owner : String) : Stays (r.number owner) := by
  rw [Reference.number]
  cases r.number? with
  | none => exact .error (by simp)
  | some n => exact .ok n

theorem stays_require (owner what : String) (r : Option Reference) :
    Stays (require owner what r) := by
  cases r with
  | none => exact .error (by simp)
  | some r => exact stays_number r _

theorem stays_keyed {α : Type} {offset : α → Except Fault Nat} {items : List α}
    (h : ∀ item ∈ items, Stays (offset item)) : Stays (keyed offset items) :=
  Stays.mapM fun item hitem => (h item hitem).bind fun _ _ => .pure _

theorem stays_sortedFields (r : Register) : Stays r.sortedFields :=
  (stays_keyed fun _ _ => stays_require _ _ _).bind fun _ _ => .pure _

theorem stays_sortedRegisters (b : AddressBlock) : Stays b.sortedRegisters :=
  (stays_keyed fun _ _ => stays_require _ _ _).bind fun _ _ => .pure _

theorem stays_registerAddress (b : AddressBlock) (r : Register) : Stays (b.registerAddress r) := by
  refine (stays_require _ _ _).bind fun base _ => (stays_require _ _ _).bind fun offset _ => ?_
  rw [checkedAdd]
  split
  · exact .ok _
  · exact .error (by simp)

theorem stays_enumValue (e : EnumValue) : Stays e.number := by
  rw [EnumValue.number]
  cases e.value with
  | none => exact .error (by simp)
  | some v =>
    dsimp only
    cases v.number? with
    | none => exact .error (by simp)
    | some n => exact .ok n

namespace RegisterDoc

open Latex LineWriter Output

/-! ### Registers -/

theorem stays_byteSize {r : Register} {bits : Nat} (h : r.bitSize = .ok bits) :
    Stays (byteSize bits) := by
  obtain ⟨-, rfl⟩ := (gives_require _ _ r.size).eq_ok_iff.1 h
  rw [byteSize_eq]
  exact .ok _

theorem stays_propertyLines (b : AddressBlock) (r : Register) (p : Presence) :
    Stays (propertyLines b r p) :=
  (stays_require _ _ _).bind fun _ hbits => (stays_byteSize hbits).bind fun _ _ =>
    (stays_registerAddress b r).bind fun _ _ => .pure _

theorem stays_spans (r : Register) : Stays (spans r) :=
  (stays_sortedFields r).bind fun _ _ => Stays.mapM fun _ _ =>
    (stays_require _ _ _).bind fun _ _ => (stays_require _ _ _).bind fun _ _ => .pure _

/-- The bits of a register are numbered below its size, which is a number of 64 bits. -/
theorem stays_bitCells (r : Register) : Stays (bitCells r) := by
  refine (stays_require _ _ _).bind fun size hsize => (stays_spans r).bind fun fields _ => ?_
  obtain ⟨-, rfl⟩ := (gives_require _ _ r.size).eq_ok_iff.1 hsize
  have hlt : numberOf r.size < Literal.bound := numberOf_lt_bound r.size
  rw [divCeil_eight hlt, ok_bind]
  refine Stays.mapM fun byte hbyte => ?_
  rw [List.mem_reverse, List.mem_range] at hbyte
  rw [byteCells_eq fields _ (by rw [Literal.bound] at hlt ⊢; omega)]
  exact .ok _

theorem stays_descriptionLines (r : Register) : Stays (descriptionLines r) :=
  (stays_sortedFields r).bind fun _ _ => (Stays.mapM fun _ _ =>
    (stays_require _ _ _).bind fun _ _ => (stays_keyed fun e _ => stays_enumValue e).bind
      fun _ _ => .pure _).bind fun _ _ => .pure _

theorem stays_registerPart (doc : DocOptions) (b : AddressBlock) (r : Register) (p : Presence) :
    Stays (registerPart doc b r p) := by
  refine (stays_propertyLines b r p).bind fun properties _ => ?_
  split
  · exact (stays_bitCells r).bind fun _ _ => (stays_descriptionLines r).bind fun _ _ => .pure _
  · exact .pure _

/-! ### Rows of words -/

section

variable {wordBytes : Nat} {b : AddressBlock}

theorem stays_updateRow {p : WordRow → Prop} {word : Nat} {fresh : Except Fault WordRow}
    {change : WordRow → Except Fault WordRow} {rows : List WordRow} (hfresh : Stays fresh)
    (hkeeps : Ensures fresh p) (hchange : ∀ row, p row → Stays (change row))
    (h : ∀ row ∈ rows, p row) : Stays (updateRow word fresh change rows) := by
  have hnew : ∀ row, fresh = .ok row → Stays (change row) := fun row hrow =>
    hchange row (hkeeps row hrow)
  induction rows with
  | nil => exact hfresh.bind fun row hrow => (hnew row hrow).bind fun _ _ => .pure _
  | cons row rows ih =>
    obtain ⟨hrow, hrows⟩ := List.forall_mem_cons.1 h
    rw [updateRow]
    split_ifs
    · exact hfresh.bind fun row hrow => (hnew row hrow).bind fun _ _ => .pure _
    · exact (hchange row hrow).bind fun _ _ => .pure _
    · exact (ih hrows).bind fun _ _ => .pure _

/-- A register does not begin before its access word does, and only bytes of the word are set. -/
theorem stays_addRegister (hpos : 0 < wordBytes) (hbound : wordBytes < Literal.bound)
    {rows : List WordRow} (r : Register) (h : ∀ row ∈ rows, row.bytes.length = wordBytes) :
    Stays (addRegister wordBytes b rows r) := by
  refine (stays_require _ _ _).bind fun offset hoffset =>
    (stays_registerAddress b r).bind fun address haddress =>
      (stays_require _ _ _).bind fun bits hbits => ?_
  obtain ⟨-, rfl⟩ := r.gives_byteOffset.eq_ok_iff.1 hoffset
  obtain ⟨-, rfl⟩ := (b.gives_registerAddress r).eq_ok_iff.1 haddress
  obtain ⟨-, rfl⟩ := (gives_require _ _ r.size).eq_ok_iff.1 hbits
  have hfresh : freshRow wordBytes (r.start / wordBytes) (r.start % wordBytes) (b.address r) =
      .ok (rowOf wordBytes b [] (r.start / wordBytes)) := freshRow_eq (by simp)
  rw [byteSize_eq, ok_bind]
  refine stays_updateRow (p := fun row => row.bytes.length = wordBytes) ?_ ?_ ?_ h
  · rw [hfresh]
    exact .ok _
  · rw [hfresh]
    exact .pure (by simp [rowOf])
  · intro row hrow
    rw [fill_eq hpos hbound hrow]
    exact .ok _

theorem stays_wordRows (hpos : 0 < wordBytes) (hbound : wordBytes < Literal.bound)
    (b : AddressBlock) (rs : List Register) : Stays (wordRows wordBytes b rs) :=
  Stays.foldlM (q := fun rows => ∀ row ∈ rows, row.bytes.length = wordBytes) (by simp)
    (fun _ r => ensures_addRegister b r) fun _ r => stays_addRegister hpos hbound r

/-- A table of words leaves the range behind the last byte of all only. -/
theorem wordTable_eq_outOfRange_iff {o : OutputOptions} (hwidth : o.wordWidth < Plan.widthBound)
    {rs : List Register} {rows : List WordRow} (hrows : wordRows o.wordBytes b rs = .ok rows) :
    wordTable o.wordBytes rows = .error .outOfRange ↔ BeginsLast o.wordBytes rs := by
  obtain ⟨words, -, -, hgives⟩ :=
    exists_wordRows (wordBytes_pos o) (by have := wordBytes_lt hwidth; omega) b rs
  obtain ⟨rows', _, hrows', -, -, hlast, htable⟩ :=
    exists_wordTable hwidth (hgives.eq_ok_iff.1 hrows).1
  obtain rfl := Except.ok.inj (hrows.symm.trans hrows')
  refine ⟨fun hstop => ?_, hlast⟩
  by_contra hnot
  obtain ⟨table, hok, -⟩ := htable hnot
  rw [hok] at hstop
  cases hstop

end

/-! ### Blocks -/

/-- A register of the block is documented that begins with the last byte of all, which is an access
word of its own. -/
def ReachesEnd (o : OutputOptions) (doc : DocOptions) (c : Component) (b : AddressBlock) : Prop :=
  ∃ registers, presentRegisters doc c b = .ok registers ∧
    ∃ rows, wordRows o.wordBytes b (registers.map Prod.fst) = .ok rows ∧
      BeginsLast o.wordBytes (registers.map Prod.fst)

theorem blockPart_eq_outOfRange_iff {o : OutputOptions} (hwidth : o.wordWidth < Plan.widthBound)
    (doc : DocOptions) (c : Component) (b : AddressBlock) :
    blockPart o doc c b = .error .outOfRange ↔ ReachesEnd o doc c b := by
  have hbound : o.wordBytes < Literal.bound := by
    have := wordBytes_lt hwidth
    omega
  have hregisters : Stays (presentRegisters doc c b) :=
    (stays_sortedRegisters b).bind fun _ _ => .pure _
  rw [blockPart, hregisters.bind_eq_error_iff, ReachesEnd]
  refine exists_congr fun registers => and_congr_right fun _ => ?_
  rw [(stays_wordRows (wordBytes_pos o) hbound b _).bind_eq_error_iff]
  refine exists_congr fun rows => and_congr_right fun hrows => ?_
  rw [bind_eq_error_iff, wordTable_eq_outOfRange_iff hwidth hrows]
  refine or_iff_left ?_
  rintro ⟨words, -, hstop⟩
  exact (Stays.mapM fun rp _ => stays_registerPart doc b rp.1 rp.2).bind (fun _ _ => .pure _) hstop

/-! ### The document -/

/-- One of the blocks reaches the end, and those before it can be documented. -/
def BlocksReachEnd (o : OutputOptions) (doc : DocOptions) (c : Component)
    (bs : List AddressBlock) : Prop :=
  ∃ before b behind, bs = before ++ b :: behind ∧
    (∀ b' ∈ before, ∃ p, blockPart o doc c b' = .ok p) ∧ ReachesEnd o doc c b

/-- The document for a component gets to a block that reaches the end. -/
def LeavesRange (o : OutputOptions) (doc : DocOptions) (c : Component) : Prop :=
  ∃ m, selectMap o c = .ok m ∧ (doc.regions = true → ∃ t, regionTable m = .ok t) ∧
    BlocksReachEnd o doc c m.blocks

theorem mapM_blockPart_eq_outOfRange_iff {o : OutputOptions}
    (hwidth : o.wordWidth < Plan.widthBound) (doc : DocOptions) (c : Component)
    (bs : List AddressBlock) : bs.mapM (blockPart o doc c) = .error .outOfRange ↔
      BlocksReachEnd o doc c bs := by
  simp only [mapM_eq_error_iff, blockPart_eq_outOfRange_iff hwidth, BlocksReachEnd]

theorem stays_regionTable (m : MemoryMap) : Stays (regionTable m) :=
  (Stays.mapM fun _ _ => (stays_require _ _ _).bind fun _ _ => .pure _).bind fun _ _ => .pure _

theorem content_eq_outOfRange_iff {o : OutputOptions} (hwidth : o.wordWidth < Plan.widthBound)
    (doc : DocOptions) (c : Component) (m : MemoryMap) :
    content o doc c m = .error .outOfRange ↔
      (doc.regions = true → ∃ t, regionTable m = .ok t) ∧ BlocksReachEnd o doc c m.blocks := by
  have hblocks (regions : Option Table) :
      (do return { map := m, regions, blocks := ← m.blocks.mapM (blockPart o doc c) } :
        Except Fault Content) = .error .outOfRange ↔ BlocksReachEnd o doc c m.blocks := by
    rw [bind_eq_error_iff, mapM_blockPart_eq_outOfRange_iff hwidth]
    simp [pure, Except.pure]
  rw [content]
  split
  case isTrue hregions =>
    rw [((stays_regionTable m).map).bind_eq_error_iff]
    simp only [hblocks, exists_and_right, exists_map_eq_ok_iff, hregions, true_implies]
  case isFalse hregions =>
    refine (hblocks none).trans ?_
    simp [hregions]

theorem selectMap_ne_fault (o : OutputOptions) (c : Component) (f : Fault) :
    selectMap o c ≠ .error (.fault f) := by
  rw [selectMap]
  split <;> nofun

/-! ### The written document -/

section

variable {w : LineWriter} {style : Style} {level : Nat}

theorem stands_description (h : w.Stands style level) (d : Option String) :
    (match d with
      | some text => w.line (escape text)
      | none => w).Stands style level := by
  cases d with
  | none => exact h
  | some text => exact h.line _

theorem stands_writeHeading (h : w.Stands style level) (command heading : String) (l : Label) :
    (writeHeading command heading l w).Stands style level :=
  stands_description (h.line _) l.description

theorem stands_table (h : w.Stands style level) (hbound : level + style.indent < Literal.bound)
    (t : Table) : (t.write w).Stands style level :=
  h.scope _ _ hbound fun _ hv => hv.writeLines _

theorem stands_writeItems (h : w.Stands style level)
    (hbound : level + style.indent < Literal.bound) (lines : List String) :
    (writeItems lines w).Stands style level :=
  h.scope _ _ hbound fun _ hv => hv.writeLines _

theorem stands_writeRegister (h : w.Stands style level)
    (hbound : level + style.indent < Literal.bound) (p : RegisterPart) :
    (writeRegister w p).Stands style level := by
  have hheading := h.line (command "subsection" (escape p.register.name) ++
    command "label" p.register.name)
  have hproperties := stands_writeItems hheading hbound p.properties
  have hbits := (stands_description hproperties p.register.description).blank.foldl
    fun _ hv cells (_ : cells ∈ p.bits) => (stands_table hv hbound (bitTable cells)).blank
  rw [writeRegister]
  split
  · exact hbits
  · exact (stands_writeItems hbits hbound p.fields).blank

theorem stands_writeBlock (h : w.Stands style level)
    (hbound : level + style.indent < Literal.bound) (p : BlockPart) :
    (writeBlock w p).Stands style level :=
  (stands_table (stands_writeHeading h _ _ _).blank hbound p.words).blank.foldl
    fun _ hv r _ => stands_writeRegister hv hbound r

end

/-- Only tables and lists of descriptions are indented, and only by one step. -/
theorem stands_write {o : OutputOptions} (hindent : o.style.indent < Literal.bound) (c : Content) :
    (write o c).Stands (o.style.withCommentChar '%') 0 := by
  have hbound : 0 + (o.style.withCommentChar '%').indent < Literal.bound := by
    rw [Nat.zero_add]
    exact hindent
  have hheading := (stands_writeHeading (stands_beginText o '%') "chapter"
    (title c.map.toLabel) c.map.toLabel).blank
  rw [write]
  refine Stands.foldl (fun _ hv p _ => stands_writeBlock hv hbound p) ?_
  cases c.regions with
  | none => exact hheading
  | some table => exact (stands_table (hheading.comment _) hbound table).blank

/-- For every component, a document leaves the range of numbers if and only if it gets to a block
with a register whose first byte is the last one of all, and access words are bytes. -/
theorem generate_leaves_range_iff {o : OutputOptions} (hwidth : o.wordWidth < Plan.widthBound)
    (hindent : o.style.indent < Literal.bound) (doc : DocOptions) (c : Component) :
    (generate o doc c = .error (.fault .outOfRange) ↔ LeavesRange o doc c) ∧
    (LeavesRange o doc c → o.wordWidth < 16) := by
  constructor
  · rw [generate, forMap, LeavesRange]
    cases hm : selectMap o c with
    | error e =>
      have hmap := selectMap_ne_fault o c .outOfRange
      rw [hm] at hmap
      simpa [bind, Except.bind] using hmap
    | ok m =>
      have hwriter : ∀ content', (write o content').text = .ok (write o content').finish :=
        fun content' => (write o content').gives_text.ok (stands_write hindent content').going
      simp [ok_bind, mapError_eq_error_iff, bind_eq_error_iff, hwriter,
        content_eq_outOfRange_iff hwidth]
  · rintro ⟨m, -, -, before, b, behind, -, -, registers, -, rows, -, hbytes, -⟩
    rw [OutputOptions.wordBytes] at hbytes
    omega

/-- A component whose only register is the last byte that 64 bits can number. -/
def lastByte : Component where
  memoryMaps := [{ name := "map", blocks := [lastByteBlock] }]

/-- With access words of two bytes, there is a number for the word behind this register. -/
theorem generate_leaves_range_iff_wide :
    let o : OutputOptions := { name := "regs", wordWidth := 16 }
    o.wordWidth < Plan.widthBound ∧ o.style.indent < Literal.bound ∧
      generate o {} lastByte ≠ .error (.fault .outOfRange) := by
  intro o
  have hwidth : o.wordWidth < Plan.widthBound := by decide
  have hindent : o.style.indent < Literal.bound := by decide
  obtain ⟨hiff, hnarrow⟩ := generate_leaves_range_iff hwidth hindent {} lastByte
  exact ⟨hwidth, hindent, fun hleaves => absurd (hnarrow (hiff.1 hleaves)) (by decide)⟩

/-- With access words of one byte there is no number for the word behind this register. -/
theorem last_byte_leaves_range : Plan.isWordWidth 8 = true ∧
    generate { name := "regs", wordWidth := 8 } {} lastByte = .error (.fault .outOfRange) := by
  refine ⟨by decide, ?_⟩
  decide +kernel

end RegisterDoc

end RegAtlas
