import RegAtlas.Output.EntityTable
import RegAtlas.Output.RegisterDoc
import RegAtlas.Proofs.Output.Tabular
import RegAtlas.Proofs.Result

/-!
# The rows of generated tables

Every row of a table for an entity or in a register document takes as many columns as its table has,
whatever characters names, types, defaults and descriptions hold.
-/

namespace RegAtlas

open Latex

/-! ### Tables of an entity -/

namespace EntityTable

/-- The tables of an interface, without empty ones. -/
def tables (i : Entity.Interface) : List Table :=
  (if i.generics.isEmpty then [] else [genericTable i.generics]) ++
    if i.ports.isEmpty then [] else [portTable i.ports]

/-- The text of an interface as it is written. -/
def document (style : Style) (i : Entity.Interface) : LineWriter :=
  let w := Output.preamble none { style := style.withCommentChar '%' }
  let w := if i.generics.isEmpty then w else writeTable "Generics" (genericTable i.generics) w
  if i.ports.isEmpty then w else writeTable "Ports" (portTable i.ports) w

theorem finish_document (style : Style) (i : Entity.Interface) :
    (document style i).finish = generate style i := rfl

theorem rowOver_textRow (texts : List String) : RowOver texts.length (textRow texts) := by
  have hrow : textRow texts = (texts.map escape).map Cell.plain := by simp [textRow]
  rw [hrow, ← List.length_map escape]
  exact rowOver_plain (List.forall_mem_map.2 fun text _ => cellText_escape text)

theorem rowOver_headerRow (texts : List String)
    (h : ∀ text ∈ texts, ∀ c ∈ text.toList, c ≠ '&' ∧ c ≠ '\\') :
    RowOver texts.length (headerRow texts) := by
  have hrow : headerRow texts = (texts.map bold).map Cell.plain := by simp [headerRow]
  rw [hrow, ← List.length_map bold]
  exact rowOver_plain (List.forall_mem_map.2 fun text ht =>
    cellText_bold (cellText_of_forall (h text ht)))

theorem rowOver_headingRow (text : String) : RowOver 4 (headingRow text) :=
  rowOver_spanning (by decide) (inert_of_forall (by decide))
    (cellText_grey (cellText_bold (cellText_escape text))).inert

theorem isColumn_columns : ∀ f ∈ columns, IsColumn f := by
  have hshares : ∀ share ∈ ["0.2", "0.15", "0.2", "0.35"],
      ∀ c ∈ share.toList ++ "\\textwidth".toList, c ≠ '\x7b' ∧ c ≠ '\x7d' := by decide
  exact List.forall_mem_map.2 fun share hshare =>
    isColumn_paragraph _ (by simp) (hshares share hshare)

theorem rowOver_genericRow (entry : Entity.Entry Entity.Generic) :
    RowOver 4 (genericRow entry) := by
  cases entry with
  | declaration g => exact rowOver_textRow [g.name, g.type, g.default.getD "", g.description]
  | heading text => exact rowOver_headingRow text

theorem rowOver_portRow (entry : Entity.Entry Entity.Port) : RowOver 4 (portRow entry) := by
  cases entry with
  | declaration p => exact rowOver_textRow [p.name, p.direction, p.type, p.description]
  | heading text => exact rowOver_headingRow text

theorem wellFormed_table {header : List Cell} {rows : List (List Cell)} (hheader : RowOver 4 header)
    (hrows : ∀ row ∈ rows, RowOver 4 row) : Table.WellFormed ⟨columns, header :: rows⟩ where
  nonempty := List.cons_ne_nil _ _
  columns := isColumn_columns
  rows := List.forall_mem_cons.2 ⟨hheader, hrows⟩

theorem wellFormed_genericTable (entries : List (Entity.Entry Entity.Generic)) :
    (genericTable entries).WellFormed :=
  wellFormed_table
    (rowOver_headerRow ["Name", "Type", "Default value", "Description"] (by decide))
    (List.forall_mem_map.2 fun entry _ => rowOver_genericRow entry)

theorem wellFormed_portTable (entries : List (Entity.Entry Entity.Port)) :
    (portTable entries).WellFormed :=
  wellFormed_table (rowOver_headerRow ["Name", "Direction", "Type", "Description"] (by decide))
    (List.forall_mem_map.2 fun entry _ => rowOver_portRow entry)

theorem wellFormed_tables (i : Entity.Interface) : ∀ t ∈ tables i, t.WellFormed := by
  intro t ht
  obtain ht | ht := List.mem_append.1 ht
  · split at ht
    · simp at ht
    · exact List.mem_singleton.1 ht ▸ wellFormed_genericTable i.generics
  · split at ht
    · simp at ht
    · exact List.mem_singleton.1 ht ▸ wellFormed_portTable i.ports

theorem adds_writeTable {w : LineWriter} (hw : w.style.commentChar = '%') (title : String)
    (t : Table) : Tabular.Adds [t] w (writeTable title t w) :=
  ((Tabular.adds_note hw title).trans (Tabular.adds_table t _)).trans_nil (Tabular.adds_blank _)

theorem adds_unless {w : LineWriter} (hw : w.style.commentChar = '%') (empty : Bool)
    (title : String) (t : Table) : Tabular.Adds (if empty then [] else [t]) w
      (if empty then w else writeTable title t w) := by
  split
  · exact .refl w
  · exact adds_writeTable hw title t

theorem adds_document (style : Style) (i : Entity.Interface) :
    Tabular.Adds (tables i) { style := style.withCommentChar '%' } (document style i) := by
  have hpreamble := Tabular.adds_preamble (w := { style := style.withCommentChar '%' }) rfl none
  have hgenerics := hpreamble.trans (adds_unless (congrArg Style.commentChar hpreamble.style)
    i.generics.isEmpty "Generics" (genericTable i.generics))
  exact hgenerics.trans (adds_unless (congrArg Style.commentChar hgenerics.style)
    i.ports.isEmpty "Ports" (portTable i.ports))

/-- The document of an interface shows its tables. -/
theorem ofWriter_document (style : Style) (i : Entity.Interface) :
    Tabular.ofWriter (document style i) = (tables i).map Table.tabular :=
  Tabular.ofWriter_eq (adds_document style i) rfl

end EntityTable

/-! ### Tables of a register document -/

namespace RegisterDoc

/-- The tables of a document. -/
def tables (c : Content) : List Table :=
  c.regions.toList ++ c.blocks.flatMap fun p =>
    p.words :: p.registers.flatMap fun r => r.bits.map bitTable

/-- The texts of a bit can stand in cells. -/
structure BitCell.Readable (c : BitCell) : Prop where
  name : CellText c.name.toList
  reset : CellText c.reset.toList

/-- The lines about a register open no table, and the texts of its bits can stand in cells. -/
structure RegisterPart.WellFormed (p : RegisterPart) : Prop where
  properties : ∀ line ∈ p.properties, BeginsPlain line.toList
  bits : ∀ cells ∈ p.bits, ∀ c ∈ cells, c.Readable
  fields : ∀ line ∈ p.fields, BeginsPlain line.toList

structure BlockPart.WellFormed (p : BlockPart) : Prop where
  words : p.words.WellFormed
  registers : ∀ r ∈ p.registers, r.WellFormed

structure Content.WellFormed (c : Content) : Prop where
  regions : ∀ t ∈ c.regions, t.WellFormed
  blocks : ∀ p ∈ c.blocks, p.WellFormed

/-! #### Tables of blocks and words -/

theorem rowOver_addressHeader : RowOver 1 [.plain (bold "Address offset")] :=
  rowOver_singleton (cellText_bold (cellText_of_forall (by decide)))

theorem cellText_address (width n : Nat) : CellText ("0x" ++ Text.hexUpper width n).toList :=
  cellText_append (cellText_of_forall (by decide)) (cellText_hexUpper width n)

theorem rowOver_region (b : AddressBlock) (base : Nat) :
    RowOver 2 [.plain (escape (title b.toLabel)), .plain ("0x" ++ Text.hexUpper 3 base)] :=
  (rowOver_singleton (cellText_escape _)).append (rowOver_singleton (cellText_address 3 base))

theorem wellFormed_regionTable {rows : List (List Cell)} (h : ∀ row ∈ rows, RowOver 2 row) :
    Table.WellFormed {
      columns := ["p\x7b5cm\x7d", "p\x7b4cm\x7d"]
      rows := [.plain (bold "Memory region"), .plain (bold "Address offset")] :: rows } where
  nonempty := List.cons_ne_nil _ _
  columns := List.forall_mem_cons.2 ⟨isColumn_paragraph "5cm".toList rfl (by decide),
    List.forall_mem_singleton.2 (isColumn_paragraph "4cm".toList rfl (by decide))⟩
  rows := by
    have hregion : RowOver 1 [.plain (bold "Memory region")] :=
      rowOver_singleton (cellText_bold (cellText_of_forall (by decide)))
    exact List.forall_mem_cons.2 ⟨hregion.append rowOver_addressHeader, h⟩

theorem ensures_regionTable (m : MemoryMap) : Ensures (regionTable m) Table.WellFormed :=
  (Ensures.mapM fun b _ => (Ensures.trivial b.base).bind fun base _ =>
    .pure (rowOver_region b base)).bind fun _ hrows => .pure (wellFormed_regionTable hrows)

/-! #### Tables of words -/

theorem rowOver_cells {n : Nat} {row : WordRow} (h : row.bytes.length = n) :
    RowOver (n + 1) row.cells := by
  have hnames : ∀ text ∈ row.bytes.reverse.map fun b => (b.map escape).getD "",
      CellText text.toList := List.forall_mem_map.2 fun b _ => by
    cases b with
    | none => exact cellText_nil
    | some name => exact cellText_escape name
  have hbytes := rowOver_merge hnames
  rw [List.length_map, List.length_reverse, h] at hbytes
  exact hbytes.append (rowOver_singleton (cellText_address 3 row.address))

theorem rowOver_reservedRow (n : Nat) : RowOver (n + 1) (reservedRow n) := by
  have hots : CellText "ots".toList := cellText_of_forall (by decide)
  have hdots : CellText "\\dots".toList := (cellText_escaped (by decide)).append hots
  exact (rowOver_spanning (by decide) (inert_of_forall (by decide))
    (inert_of_forall (by decide))).append
    (rowOver_singleton hdots)

theorem ensures_wordCells {n next : Nat} {rows : List WordRow}
    (h : ∀ row ∈ rows, row.bytes.length = n) :
    Ensures (wordCells n next rows) fun cells => ∀ row ∈ cells, RowOver (n + 1) row := by
  induction rows generalizing next with
  | nil => exact .pure (by simp)
  | cons row rows ih =>
    rw [List.forall_mem_cons] at h
    refine (Ensures.trivial (Bounded.add row.word 1)).bind fun behind _ =>
      (ih h.2).bind fun rest hrest => .pure ?_
    refine List.forall_mem_append.2 ⟨?_, List.forall_mem_cons.2 ⟨rowOver_cells h.1, hrest⟩⟩
    split
    · exact List.forall_mem_singleton.2 (rowOver_reservedRow n)
    · simp

theorem ensures_byteHead (byte : Nat) :
    Ensures (byteHead byte) fun cell => ∃ text, cell = .plain text ∧ CellText text.toList := by
  refine (Ensures.trivial _).bind fun offset _ => (Ensures.trivial _).bind fun high _ =>
    (Ensures.trivial _).bind fun low _ => .pure ?_
  have hhigh := cellText_append (s := "Bits [") (cellText_of_forall (by decide))
    (cellText_toString high)
  have hcolon := cellText_append hhigh (t := ":") (cellText_of_forall (by decide))
  exact ⟨_, rfl, cellText_bold (cellText_append (cellText_append hcolon (cellText_toString low))
    (t := "]") (cellText_of_forall (by decide)))⟩

theorem rowOver_of_plain {row : List Cell}
    (h : ∀ cell ∈ row, ∃ text, cell = .plain text ∧ CellText text.toList) :
    RowOver row.length row where
  readable cell hcell := by
    obtain ⟨text, rfl, htext⟩ := h cell hcell
    exact htext
  columns := by
    have hone : row.map Cell.columns = List.replicate row.length 1 :=
      List.eq_replicate_iff.2 ⟨List.length_map _, List.forall_mem_map.2 fun cell hcell => by
        obtain ⟨text, rfl, -⟩ := h cell hcell
        rfl⟩
    rw [hone]
    simp

/-- What a table of words is made of, whatever its rows are. -/
theorem ensures_wordTable {n : Nat} {rows : List WordRow}
    (h : ∀ row ∈ rows, row.bytes.length = n) : Ensures (wordTable n rows) Table.WellFormed := by
  refine (Ensures.self (Bounded.add n 1)).bind fun columns hcolumns => ?_
  refine ((Ensures.self _).and (Ensures.mapM fun byte _ => ensures_byteHead byte)).bind
    fun heads hheads => (ensures_wordCells h).bind fun words hwords => .pure ?_
  have hlength : heads.length = n := by
    rw [length_of_mapM_eq_ok hheads.1, List.length_reverse, List.length_range]
  obtain rfl : columns = n + 1 := Bounded.eq_of_add_eq_ok hcolumns
  constructor
  case nonempty => simp
  case columns => exact fun f hf => List.eq_of_mem_replicate hf ▸ isColumn_centred
  case rows =>
    have hheader := (rowOver_of_plain hheads.2).append rowOver_addressHeader
    rw [hlength] at hheader
    rw [List.length_replicate]
    exact List.forall_mem_cons.2 ⟨hheader, hwords⟩

theorem ensures_updateRow {p : WordRow → Prop} {word : Nat} {fresh : Except Fault WordRow}
    {change : WordRow → Except Fault WordRow} {rows : List WordRow} (hfresh : Ensures fresh p)
    (hchange : ∀ row, p row → Ensures (change row) p) (h : ∀ row ∈ rows, p row) :
    Ensures (updateRow word fresh change rows) fun rows => ∀ row ∈ rows, p row := by
  have hchanged : Ensures (fresh >>= change) p := hfresh.bind hchange
  induction rows with
  | nil =>
    exact hfresh.bind fun row hrow => (hchange row hrow).bind fun row hrow =>
      .pure (List.forall_mem_singleton.2 hrow)
  | cons row rows ih =>
    obtain ⟨hrow, hrows⟩ := List.forall_mem_cons.1 h
    rw [updateRow]
    split_ifs
    · exact hfresh.bind fun row' hrow' => (hchange row' hrow').bind fun row' hrow' =>
        .pure (List.forall_mem_cons.2 ⟨hrow', h⟩)
    · exact (hchange row hrow).bind fun row' hrow' =>
        .pure (List.forall_mem_cons.2 ⟨hrow', hrows⟩)
    · exact (ih hrows).bind fun rows' hrows' => .pure (List.forall_mem_cons.2 ⟨hrow, hrows'⟩)

theorem ensures_set {α : Type} (xs : List α) (i : Nat) (x : α) :
    Ensures (Bounded.set xs i x) fun ys => ys.length = xs.length := by
  rw [Bounded.set]
  split
  · exact .pure (List.length_set ..)
  · exact nofun

theorem ensures_fill {n : Nat} (wordBytes first size : Nat) (name : String) (row : WordRow)
    (h : row.bytes.length = n) :
    Ensures (row.fill wordBytes first size name) fun row => row.bytes.length = n := by
  refine (Ensures.foldlM (q := fun bytes => bytes.length = n) h fun bytes i hbytes => ?_).bind
    fun bytes hbytes => .pure hbytes
  exact hbytes ▸ ensures_set bytes i (some name)

/-- A register is written into rows without changing the number of their bytes. -/
theorem ensures_addRegister {n : Nat} (b : AddressBlock) {rows : List WordRow} (r : Register)
    (h : ∀ row ∈ rows, row.bytes.length = n) :
    Ensures (addRegister n b rows r) fun rows => ∀ row ∈ rows, row.bytes.length = n := by
  refine (Ensures.trivial r.byteOffset).bind fun offset _ => ?_
  refine (Ensures.trivial (b.registerAddress r)).bind fun address _ => ?_
  refine (Ensures.trivial r.bitSize).bind fun bits _ => ?_
  refine (Ensures.trivial (byteSize bits)).bind fun size _ => ?_
  refine ensures_updateRow ?_ (fun row => ensures_fill _ _ _ _ row) h
  exact (Ensures.trivial _).bind fun first _ => .pure List.length_replicate

theorem ensures_wordRows (n : Nat) (b : AddressBlock) (rs : List Register) :
    Ensures (wordRows n b rs) fun rows => ∀ row ∈ rows, row.bytes.length = n :=
  Ensures.foldlM (by simp) fun _ r hrows => ensures_addRegister b r hrows

/-! #### Tables of bits -/

theorem ensures_nameIn (s : Span) (byteLow byteHigh : Nat) :
    Ensures (s.nameIn byteLow byteHigh) fun name => CellText name.toList := by
  have hname :
      CellText (if s.field.isReserved then "Reserved" else escape s.field.name).toList := by
    split
    · exact cellText_of_forall (by decide)
    · exact cellText_escape _
  have hopen : CellText "[".toList := cellText_of_forall (by decide)
  have hclose : CellText "]".toList := cellText_of_forall (by decide)
  have hcolon : CellText ":".toList := cellText_of_forall (by decide)
  rw [Span.nameIn]
  generalize (if s.field.isReserved then "Reserved" else escape s.field.name) = name at hname ⊢
  split
  · exact .pure hname
  · refine (Ensures.trivial _).bind fun first _ => (Ensures.trivial _).bind fun last _ => .pure ?_
    have hlast := cellText_append (cellText_append hname hopen) (cellText_toString last)
    have hfirst := cellText_append (cellText_append hlast hcolon) (cellText_toString first)
    split
    · exact cellText_append hlast hclose
    · exact cellText_append hfirst hclose

theorem cellText_resetBit (f : BitField) (bit : Nat) : CellText (resetBit f bit).toList := by
  rw [resetBit]
  split
  · exact cellText_toString _
  · exact cellText_of_forall (by decide)

theorem ensures_bitCell (fields : List Span) (byteLow byteHigh bit : Nat) :
    Ensures (bitCell fields byteLow byteHigh bit) BitCell.Readable := by
  have hreserved : CellText "Reserved".toList := cellText_of_forall (by decide)
  have hnone : CellText "-".toList := cellText_of_forall (by decide)
  rw [bitCell]
  split
  case h_1 s _ =>
    exact (ensures_nameIn s byteLow byteHigh).bind fun name hname =>
      (Ensures.trivial _).bind fun i _ => .pure ⟨hname, cellText_resetBit s.field i⟩
  case h_2 => exact .pure ⟨hreserved, hnone⟩

theorem ensures_bitCells (r : Register) :
    Ensures (bitCells r) fun bytes => ∀ cells ∈ bytes, ∀ c ∈ cells, c.Readable := by
  refine (Ensures.trivial r.bitSize).bind fun size _ => ?_
  refine (Ensures.trivial (spans r)).bind fun fields _ => ?_
  refine (Ensures.trivial _).bind fun bytes _ => Ensures.mapM fun byte _ => ?_
  refine (Ensures.trivial _).bind fun low _ => (Ensures.trivial _).bind fun last _ => ?_
  exact Ensures.mapM fun bit _ => ensures_bitCell fields _ _ bit

theorem wellFormed_bitTable {cells : List BitCell} (h : ∀ c ∈ cells, c.Readable) :
    (bitTable cells).WellFormed where
  nonempty := List.cons_ne_nil _ _
  columns := List.forall_mem_cons.2 ⟨isColumn_paragraph "2cm".toList rfl (by decide),
    fun f hf => List.eq_of_mem_replicate hf ▸ isColumn_centred⟩
  rows := by
    have hcolumns : (bitTable cells).columns.length = 1 + cells.length := by
      simp [bitTable, Nat.add_comm]
    have hrow : ∀ (caption : String) (text : BitCell → String), CellText caption.toList →
        (∀ c ∈ cells, CellText (text c).toList) →
        RowOver (1 + cells.length) (.plain caption :: cells.map fun c => .plain (text c)) := by
      intro caption text hcaption htext
      have htexts := rowOver_plain (List.forall_mem_map.2 htext)
      rw [List.map_map, List.length_map] at htexts
      exact (rowOver_singleton hcaption).append htexts
    have hnames := rowOver_merge (List.forall_mem_map.2 fun c hc => (h c hc).name)
    rw [List.length_map] at hnames
    rw [hcolumns]
    refine List.forall_mem_cons.2 ⟨?index, List.forall_mem_cons.2 ⟨?name,
      List.forall_mem_singleton.2 ?reset⟩⟩
    case index =>
      exact hrow _ _ (cellText_grey (cellText_of_forall (by decide)))
        fun c _ => cellText_grey (cellText_toString c.bit)
    case name => exact (rowOver_singleton (cellText_of_forall (by decide))).append hnames
    case reset => exact hrow _ _ (cellText_of_forall (by decide)) fun c hc => (h c hc).reset

/-! #### Lines between tables -/

theorem beginsPlain_item {line : String} (h : ['\\', 'i'] <+: line.toList) :
    BeginsPlain line.toList := beginsPlain_of_command (by decide) h

theorem ensures_propertyLines (b : AddressBlock) (r : Register) (p : Presence) :
    Ensures (propertyLines b r p) fun lines => ∀ line ∈ lines, BeginsPlain line.toList := by
  refine (Ensures.trivial r.bitSize).bind fun bits _ => ?_
  refine (Ensures.trivial (byteSize bits)).bind fun size _ => ?_
  refine (Ensures.trivial (b.registerAddress r)).bind fun address _ => ?_
  refine .pure (List.forall_mem_append.2 ⟨List.forall_mem_cons.2 ⟨?type, List.forall_mem_cons.2
    ⟨?address, List.forall_mem_singleton.2 ?size⟩⟩, ?remark⟩)
  case type => exact beginsPlain_item (prefix_append (by decide) _)
  case address => exact beginsPlain_item (prefix_append (by decide) _)
  case size =>
    exact beginsPlain_item (prefix_append (prefix_append (prefix_append (by decide) _) _) _)
  case remark =>
    split
    · exact List.forall_mem_singleton.2
        (beginsPlain_item (prefix_append (prefix_append (by decide) _) _))
    · simp

theorem prefix_valueLine (width n : Nat) (e : EnumValue) :
    ['\\', 'n'] <+: (valueLine width n e).toList :=
  prefix_append (prefix_append (prefix_append (prefix_append (by decide) _) _) _) _

theorem ensures_fieldLines (f : BitField) :
    Ensures (fieldLines f) fun lines => ∀ line ∈ lines, BeginsPlain line.toList := by
  refine (Ensures.trivial f.bitWidth).bind fun width _ => ?_
  refine (Ensures.trivial _).bind fun values _ => ?_
  refine .pure (List.forall_mem_cons.2 ⟨?item, List.forall_mem_map.2 fun e _ => ?value⟩)
  case item =>
    refine beginsPlain_trimEnd (beginsPlain_item ?_)
    exact prefix_append (prefix_append (prefix_append (by decide) _) _) _
  case value => exact beginsPlain_of_command (by decide) (prefix_valueLine _ e.1 e.2)

theorem ensures_descriptionLines (r : Register) :
    Ensures (descriptionLines r) fun lines => ∀ line ∈ lines, BeginsPlain line.toList := by
  refine (Ensures.trivial r.sortedFields).bind fun fields _ => ?_
  refine (Ensures.mapM fun f _ => ensures_fieldLines f).bind fun lines hlines => .pure ?_
  intro line hline
  obtain ⟨fieldLines, hfield, hline⟩ := List.mem_flatten.1 hline
  exact hlines fieldLines hfield line hline

/-! #### What a document is made of -/

theorem ensures_registerPart (doc : DocOptions) (b : AddressBlock) (r : Register) (p : Presence) :
    Ensures (registerPart doc b r p) RegisterPart.WellFormed := by
  refine (ensures_propertyLines b r p).bind fun properties hproperties => ?_
  split
  · refine (ensures_bitCells r).bind fun bits hbits => ?_
    refine (ensures_descriptionLines r).bind fun fields hfields => .pure ?_
    exact ⟨hproperties, hbits, hfields⟩
  · exact .pure ⟨hproperties, by simp, by simp⟩

theorem ensures_blockPart (o : OutputOptions) (doc : DocOptions) (c : Component)
    (b : AddressBlock) : Ensures (blockPart o doc c b) BlockPart.WellFormed := by
  refine (Ensures.trivial _).bind fun registers _ => ?_
  refine (ensures_wordRows o.wordBytes b _).bind fun rows hrows => ?_
  refine (ensures_wordTable hrows).bind fun words hwords => ?_
  refine (Ensures.mapM fun rp _ => ensures_registerPart doc b rp.1 rp.2).bind
    fun parts hparts => .pure ?_
  exact ⟨hwords, hparts⟩

theorem ensures_content (o : OutputOptions) (doc : DocOptions) (c : Component) (m : MemoryMap) :
    Ensures (content o doc c m) Content.WellFormed := by
  have hblocks : ∀ regions : Option Table, (∀ t ∈ regions, t.WellFormed) →
      Ensures (do return { map := m, regions, blocks := ← m.blocks.mapM (blockPart o doc c) })
        Content.WellFormed := fun regions hregions =>
    (Ensures.mapM fun b _ => ensures_blockPart o doc c b).bind fun blocks hblocks =>
      .pure ⟨hregions, hblocks⟩
  rw [content]
  split
  · exact ((ensures_regionTable m).map fun t ht => by simpa using ht).bind hblocks
  · exact hblocks none (by simp)

/-- A document is written from its content. -/
theorem ensures_generate (o : OutputOptions) (doc : DocOptions) (c : Component) :
    Ensures (generate o doc c) fun text => ∃ m content', Output.selectMap o c = .ok m ∧
      content o doc c m = .ok content' ∧ text = (write o content').finish :=
  (Ensures.self (Output.selectMap o c)).bind fun m hm =>
    ((Ensures.self (content o doc c m)).bind fun content' hcontent _ htext =>
      have hfinish := ((write o content').gives_text.eq_ok_iff.1 htext).2
      ⟨m, content', hm, hcontent, hfinish.symm⟩).mapError

theorem wellFormed_tables {c : Content} (h : c.WellFormed) : ∀ t ∈ tables c, t.WellFormed := by
  intro t ht
  obtain ht | ht := List.mem_append.1 ht
  · exact h.regions t (Option.mem_toList.1 ht)
  · obtain ⟨p, hp, ht⟩ := List.mem_flatMap.1 ht
    have hp := h.blocks p hp
    obtain rfl | ht := List.mem_cons.1 ht
    · exact hp.words
    · obtain ⟨r, hr, ht⟩ := List.mem_flatMap.1 ht
      obtain ⟨cells, hcells, rfl⟩ := List.mem_map.1 ht
      exact wellFormed_bitTable ((hp.registers r hr).bits cells hcells)

/-! #### Writing a document -/

theorem adds_description (d : Option String) (w : LineWriter) :
    Tabular.Adds [] w (match d with
      | some text => w.line (escape text)
      | none => w) := by
  cases d with
  | none => exact .refl w
  | some text => exact Tabular.adds_line (cellText_escape text).beginsPlain w

/-- A heading, whatever stands behind its command. -/
theorem beginsPlain_heading (level : String) {c : Char} (hc : c ∉ markedLetters)
    (hlevel : [c] <+: level.toList) (heading label : String) :
    BeginsPlain (command level heading ++ label).toList := by
  have hcommand : ['\\', c] <+: ("\\" ++ level).toList := by simpa using hlevel
  exact beginsPlain_of_command hc
    (prefix_append (prefix_append (prefix_append (prefix_append hcommand _) _) _) _)

theorem adds_writeHeading (level : String) {c : Char} (hc : c ∉ markedLetters)
    (hlevel : [c] <+: level.toList) (heading : String) (l : Label) (w : LineWriter) :
    Tabular.Adds [] w (writeHeading level heading l w) :=
  (Tabular.adds_line (beginsPlain_heading level hc hlevel _ _) w).trans
    (adds_description l.description _)

theorem adds_writeItems {lines : List String} (h : ∀ line ∈ lines, BeginsPlain line.toList)
    (w : LineWriter) : Tabular.Adds [] w (writeItems lines w) := by
  refine Tabular.adds_nil _ (w.style_scope_writeLines _ _ lines)
    (w.shown_scope_writeLines _ _ lines) ?_
  refine List.forall_mem_append.2 ⟨List.forall_mem_cons.2 ⟨?opener, fun line hline => ?line⟩,
    List.forall_mem_singleton.2 ?closer⟩
  case opener => decide
  case line => exact Tabular.opening?_of_beginsPlain (h line hline)
  case closer => decide

theorem adds_writeRegister {p : RegisterPart} (h : p.WellFormed) (w : LineWriter) :
    Tabular.Adds (p.bits.map bitTable) w (writeRegister w p) := by
  have hheading := Tabular.adds_line (beginsPlain_heading "subsection" (c := 's') (by decide)
    (by decide) (escape p.register.name) (command "label" p.register.name)) w
  have hproperties := hheading.trans_nil (adds_writeItems h.properties _)
  have hdescription := (hproperties.trans_nil (adds_description p.register.description _)).trans_nil
    (Tabular.adds_blank _)
  have hbits := hdescription.trans (Tabular.adds_foldl p.bits
    (fun w cells _ => (Tabular.adds_table (bitTable cells) w).trans_nil (Tabular.adds_blank _)) _)
  rw [writeRegister, List.map_eq_flatMap]
  split
  · exact hbits
  · exact (hbits.trans_nil (adds_writeItems h.fields _)).trans_nil (Tabular.adds_blank _)

theorem adds_writeBlock {p : BlockPart} (h : p.WellFormed) (w : LineWriter) : Tabular.Adds
    (p.words :: p.registers.flatMap fun r => r.bits.map bitTable) w (writeBlock w p) := by
  have hheading := (adds_writeHeading "section" (c := 's') (by decide) (by decide)
    (title p.block.toLabel) p.block.toLabel w).trans_nil (Tabular.adds_blank _)
  have hwords := (hheading.trans (Tabular.adds_table p.words _)).trans_nil
    (Tabular.adds_blank _)
  exact hwords.trans
    (Tabular.adds_foldl _ (fun w r hr => adds_writeRegister (h.registers r hr) w) _)

theorem adds_regions {w : LineWriter} (hw : w.style.commentChar = '%') (regions : Option Table) :
    Tabular.Adds regions.toList w (match regions with
      | some table => (table.write (w.comment (Output.note "Memory regions"))).blank
      | none => w) := by
  cases regions with
  | none => exact .refl w
  | some t =>
    exact ((Tabular.adds_note hw _).trans (Tabular.adds_table t _)).trans_nil (Tabular.adds_blank _)

theorem adds_write (o : OutputOptions) {c : Content} (h : c.WellFormed) :
    Tabular.Adds (tables c) { style := o.style.withCommentChar '%' } (write o c) := by
  have hpreamble := Tabular.adds_preamble (w := { style := o.style.withCommentChar '%' }) rfl
    o.license
  have hheading := (hpreamble.trans_nil (adds_writeHeading "chapter" (c := 'c')
    (by decide) (by decide) (title c.map.toLabel) c.map.toLabel _)).trans_nil (Tabular.adds_blank _)
  have hstyle := congrArg Style.commentChar hheading.style
  exact (hheading.trans (adds_regions hstyle c.regions)).trans
    (Tabular.adds_foldl _ (fun w p hp => adds_writeBlock (h.blocks p hp) w) _)

end RegisterDoc

/-! ### Rows of every table -/

namespace Output

theorem full_of_wellFormed {ts : List Table} (h : ∀ t ∈ ts, t.WellFormed) :
    ∀ t ∈ ts.map Table.tabular, t.Full :=
  List.forall_mem_map.2 fun t ht => List.forall_mem_map.2 fun row hrow => by
    rw [spans_trimStart]
    exact (h t ht).sum_spans hrow

/-- The texts for an entity and for a component show their tables, and every row of a table takes
as many columns as its column specification has. -/
theorem rows_full :
    (∀ (style : Style) (i : Entity.Interface),
      EntityTable.generate style i = (EntityTable.document style i).finish ∧
      Tabular.ofWriter (EntityTable.document style i) = (EntityTable.tables i).map Table.tabular ∧
      ∀ t ∈ Tabular.ofWriter (EntityTable.document style i), t.Full) ∧
    ∀ (o : OutputOptions) (doc : RegisterDoc.DocOptions) (c : Component) (text : String),
      RegisterDoc.generate o doc c = .ok text → ∃ m content, selectMap o c = .ok m ∧
        RegisterDoc.content o doc c m = .ok content ∧
        text = (RegisterDoc.write o content).finish ∧
        Tabular.ofWriter (RegisterDoc.write o content) =
          (RegisterDoc.tables content).map Table.tabular ∧
        ∀ t ∈ Tabular.ofWriter (RegisterDoc.write o content), t.Full := by
  constructor
  · intro style i
    refine ⟨EntityTable.finish_document style i, EntityTable.ofWriter_document style i, ?_⟩
    rw [EntityTable.ofWriter_document]
    exact full_of_wellFormed (EntityTable.wellFormed_tables i)
  · intro o doc c text htext
    obtain ⟨m, content, hm, hcontent, rfl⟩ := RegisterDoc.ensures_generate o doc c text htext
    have hwell := RegisterDoc.ensures_content o doc c m content hcontent
    have htables := Tabular.ofWriter_eq (RegisterDoc.adds_write o hwell) rfl
    refine ⟨m, content, hm, hcontent, rfl, htables, ?_⟩
    rw [htables]
    exact full_of_wellFormed (RegisterDoc.wellFormed_tables hwell)

/-- A map whose names hold ampersands, with a register whose last byte is partial. -/
def documentedMap : MemoryMap where
  blocks := [
    { name := "R&D", baseAddress := some (.ofText "0x100"), registers := [
      { name := "a&b", offset := some (.ofText "0"), size := some (.ofText "12"), fields := [
        { name := "x\\&y", offset := some (.ofText "0"), width := some (.ofText "12") }] }] }]

theorem rows_full_documented :
    let c : Component := { memoryMaps := [documentedMap] }
    let o : OutputOptions := { name := "regs" }
    ∃ text, RegisterDoc.generate o {} c = .ok text ∧ ∃ content,
      text = (RegisterDoc.write o content).finish ∧
      (Tabular.ofWriter (RegisterDoc.write o content)).length = 4 ∧
      ∀ t ∈ Tabular.ofWriter (RegisterDoc.write o content), t.Full := by
  intro c o
  have hok : (RegisterDoc.generate o {} c).toOption.map (fun _ => ()) = some () := by
    decide +kernel
  have hlength : (RegisterDoc.content o {} c documentedMap).toOption.map
      (fun content => (RegisterDoc.tables content).length) = some 4 := by decide +kernel
  obtain ⟨text, htext, -⟩ := exists_ok_of_map_toOption hok
  obtain ⟨m, content, hm, hcontent, heq, htables, hfull⟩ := rows_full.2 o {} c text htext
  refine ⟨text, htext, content, heq, ?_, hfull⟩
  obtain rfl : documentedMap = m := Except.ok.inj hm
  rw [hcontent] at hlength
  rw [htables, List.length_map]
  exact Option.some.inj hlength

end Output

end RegAtlas
