import Mathlib.Algebra.GroupWithZero.Nat
import RegAtlas.Output.Latex
import RegAtlas.Proofs.Output.Basic
import RegAtlas.Proofs.Text.Cut

/-!
# Rows of LaTeX tables

How a row of a table is read: cut into cells at ampersands, each cell over one column or over as
many as its command says. Escaped text holds no ampersand that ends a cell and does not begin with
that command, so that a row is read as the cells that it was written from.
-/

namespace RegAtlas.Latex

/-! ### Reading a row -/

/-- Puts characters before the first of some pieces. -/
def onto (cs : List Char) : List (List Char) → List (List Char)
  | [] => [cs]
  | piece :: pieces => (cs ++ piece) :: pieces

/-- The cells of a row, cut at every ampersand that does not stand behind an escaping backslash. A
backslash escapes the next character unless it is escaped itself. -/
def splitCells (escaped : Bool) : List Char → List (List Char)
  | [] => [[]]
  | c :: cs =>
    if c = '&' ∧ escaped = false then [] :: splitCells false cs
    else onto [c] (splitCells (c = '\\' && !escaped) cs)

/-- The number of columns of a cell: what the command says if the cell begins with it, and one
otherwise. -/
def spanOf (cell : List Char) : Nat :=
  match Text.stripStart? "\\multicolumn\x7b".toList (Text.trimStartChars cell) with
  | some rest => Nat.ofDigitChars 10 (rest.takeWhile Char.isDigit) 0
  | none => 1

/-- The numbers of columns of the cells of a row. -/
def spans (row : String) : List Nat := (splitCells false row.toList).map spanOf

/-- The columns of a column specification: the letters outside of braces. -/
def countColumns (depth : Nat) : List Char → Nat
  | [] => 0
  | c :: cs =>
    if c = '\x7b' then countColumns (depth + 1) cs
    else if c = '\x7d' then countColumns (depth - 1) cs
    else (if depth = 0 ∧ c.isAlpha then 1 else 0) + countColumns depth cs

/-! ### Texts that cut no row -/

theorem splitCells_ne_nil (escaped : Bool) (cs : List Char) : splitCells escaped cs ≠ [] := by
  cases cs with
  | nil => simp [splitCells]
  | cons c cs =>
    rw [splitCells]
    split
    · simp
    · cases splitCells (c = '\\' && !escaped) cs <;> simp [onto]

theorem onto_append (cs ds : List Char) (pieces : List (List Char)) :
    onto cs (onto ds pieces) = onto (cs ++ ds) pieces := by
  cases pieces <;> simp [onto]

theorem onto_nil {pieces : List (List Char)} (h : pieces ≠ []) : onto [] pieces = pieces := by
  cases pieces with
  | nil => exact absurd rfl h
  | cons => rfl

/-- The text stays in one cell, and what stands behind it is read as it is alone. -/
def Inert (cs : List Char) : Prop :=
  ∀ rest, splitCells false (cs ++ rest) = onto cs (splitCells false rest)

theorem inert_nil : Inert [] := fun rest => (onto_nil (splitCells_ne_nil false rest)).symm

theorem Inert.append {cs ds : List Char} (hcs : Inert cs) (hds : Inert ds) : Inert (cs ++ ds) :=
  fun rest => by rw [List.append_assoc, hcs, hds, onto_append]

theorem inert_singleton {c : Char} (hcut : c ≠ '&') (hescape : c ≠ '\\') : Inert [c] :=
  fun rest => by simp [splitCells, hcut, hescape]

theorem inert_escaped (c : Char) : Inert ['\\', c] := fun rest => by
  simp [splitCells, onto_append]

theorem inert_of_forall {cs : List Char} (h : ∀ c ∈ cs, c ≠ '&' ∧ c ≠ '\\') : Inert cs := by
  induction cs with
  | nil => exact inert_nil
  | cons c cs ih =>
    rw [List.forall_mem_cons] at h
    exact (inert_singleton h.1.1 h.1.2).append (ih h.2)

/-! ### Texts of a single column -/

/-- The first letters of the commands that begin an environment and a cell over several columns. -/
def markedLetters : List Char := ['b', 'm']

/-- The text does not begin with a command that begins an environment or a cell over several
columns. -/
def BeginsPlain (cs : List Char) : Prop :=
  ∀ letter ∈ markedLetters, ¬ ['\\', letter] <+: Text.trimStartChars cs

instance (cs : List Char) : Decidable (BeginsPlain cs) :=
  inferInstanceAs
    (Decidable (∀ letter ∈ markedLetters, ¬ ['\\', letter] <+: Text.trimStartChars cs))

theorem spanOf_of_beginsPlain {cs : List Char} (h : BeginsPlain cs) : spanOf cs = 1 := by
  have hstrip : Text.stripStart? "\\multicolumn\x7b".toList (Text.trimStartChars cs) = none := by
    rw [Text.stripStart?, if_neg]
    rw [ List.isPrefixOf_iff_prefix]
    exact fun hstart => h 'm' (by decide) (.trans ⟨_, rfl⟩ hstart)
  rw [spanOf, hstrip]

theorem beginsPlain_cons {c : Char} {cs : List Char} (hc : c ≠ '\\') (h : BeginsPlain cs) :
    BeginsPlain (c :: cs) := by
  intro letter hletter
  rw [Text.trimStartChars, List.dropWhile_cons]
  split
  · exact h letter hletter
  · exact fun hstart => hc (List.cons_prefix_cons.1 hstart).1.symm

theorem beginsPlain_command {c : Char} (hc : c ∉ markedLetters) (cs : List Char) :
    BeginsPlain ('\\' :: c :: cs) := by
  intro letter hletter hstart
  have hblank : Text.isBlank '\\' = false := by decide
  rw [Text.trimStartChars, List.dropWhile_cons_of_neg (by simp [hblank])] at hstart
  have hhead := (List.cons_prefix_cons.1 (List.cons_prefix_cons.1 hstart).2).1
  exact hc (hhead ▸ hletter)

theorem beginsPlain_of_command {c : Char} (hc : c ∉ markedLetters) {cs : List Char}
    (h : ['\\', c] <+: cs) : BeginsPlain cs := by
  obtain ⟨rest, rfl⟩ := h
  exact beginsPlain_command hc rest

theorem prefix_append {cs : List Char} {s : String} (h : cs <+: s.toList) (t : String) :
    cs <+: (s ++ t).toList := by
  rw [String.toList_append]
  exact h.trans (List.prefix_append _ _)

/-- The beginning of a text begins as the text does. -/
theorem BeginsPlain.of_prefix {cs ds : List Char} (h : BeginsPlain cs) (hstart : ds <+: cs) :
    BeginsPlain ds := by
  obtain ⟨es, rfl⟩ := hstart
  intro letter hletter hbegins
  refine h letter hletter (hbegins.trans ?_)
  rw [Text.trimStartChars, Text.trimStartChars, List.dropWhile_append]
  split
  case isTrue hempty =>
    rw [List.isEmpty_iff] at hempty
    rw [Text.trimStartChars, hempty] at hbegins
    simp at hbegins
  case isFalse => exact List.prefix_append _ _

theorem beginsPlain_trimEnd {text : String} (h : BeginsPlain text.toList) :
    BeginsPlain (Text.trimEnd text).toList := by
  refine h.of_prefix ?_
  rw [Text.trimEnd, String.toList_ofList, Text.trimEndChars, Text.dropEndWhile]
  exact List.reverse_suffix.1 (by simpa using List.dropWhile_suffix _)

/-- The text can stand in a cell of one column: it cuts no row, and begins none with a command over
several columns. -/
structure CellText (cs : List Char) : Prop where
  inert : Inert cs
  plain : ∀ rest, BeginsPlain rest → BeginsPlain (cs ++ rest)

theorem cellText_nil : CellText [] := ⟨inert_nil, fun _ h => h⟩

theorem CellText.append {cs ds : List Char} (hcs : CellText cs) (hds : CellText ds) :
    CellText (cs ++ ds) where
  inert := hcs.inert.append hds.inert
  plain rest h := by
    rw [List.append_assoc]
    exact hcs.plain _ (hds.plain rest h)

theorem cellText_append {s t : String} (hs : CellText s.toList) (ht : CellText t.toList) :
    CellText (s ++ t).toList := by
  rw [String.toList_append]
  exact hs.append ht

theorem CellText.beginsPlain {cs : List Char} (h : CellText cs) : BeginsPlain cs := by
  simpa using h.plain [] (by decide)

theorem cellText_singleton {c : Char} (hcut : c ≠ '&') (hescape : c ≠ '\\') : CellText [c] where
  inert := inert_singleton hcut hescape
  plain _ := beginsPlain_cons hescape

theorem cellText_escaped {c : Char} (hc : c ∉ markedLetters) : CellText ['\\', c] where
  inert := inert_escaped c
  plain rest _ := beginsPlain_command hc rest

theorem cellText_of_forall {cs : List Char} (h : ∀ c ∈ cs, c ≠ '&' ∧ c ≠ '\\') : CellText cs := by
  induction cs with
  | nil => exact cellText_nil
  | cons c cs ih =>
    rw [List.forall_mem_cons] at h
    exact (cellText_singleton h.1.1 h.1.2).append (ih h.2)

theorem cellText_escapeChar (c : Char) : CellText (escapeChar c) := by
  rw [escapeChar]
  split
  case isTrue h =>
    refine cellText_escaped fun hmarked => ?_
    obtain rfl | rfl : c = 'b' ∨ c = 'm' := by simpa [markedLetters] using hmarked
    all_goals simp at h
  case isFalse hspecial =>
    split
    case isTrue => exact (cellText_escaped (by decide)).append (cellText_of_forall (by decide))
    case isFalse hbackslash =>
      split
      case isTrue => exact (cellText_escaped (by decide)).append (cellText_of_forall (by decide))
      case isFalse =>
        split
        case isTrue => exact (cellText_escaped (by decide)).append (cellText_of_forall (by decide))
        case isFalse => exact cellText_singleton (by simp_all) (by simpa using hbackslash)

theorem cellText_escapeChars (cs : List Char) : CellText (escapeChars cs) := by
  induction cs with
  | nil => exact cellText_nil
  | cons c cs ih => exact (cellText_escapeChar c).append ih

/-! ### Commands and numbers -/

theorem cellText_command {name argument : String}
    (hname : ∃ c ∈ name.toList.head?, c ∉ markedLetters)
    (hchars : ∀ c ∈ name.toList, c ≠ '&' ∧ c ≠ '\\') (h : CellText argument.toList) :
    CellText (command name argument).toList := by
  obtain ⟨c, hhead, hc⟩ := hname
  obtain ⟨cs, hcs⟩ := List.head?_eq_some_iff.1 hhead
  have hcommand : (command name argument).toList =
      ['\\', c] ++ cs ++ ['\x7b'] ++ argument.toList ++ ['\x7d'] := by
    simp [command, hcs]
  rw [hcs, List.forall_mem_cons] at hchars
  rw [hcommand]
  exact ((((cellText_escaped hc).append (cellText_of_forall hchars.2)).append
    (cellText_of_forall (by decide))).append h).append (cellText_of_forall (by decide))

theorem cellText_bold {text : String} (h : CellText text.toList) : CellText (bold text).toList :=
  cellText_command ⟨'t', rfl, by decide⟩ (by decide) h

theorem cellText_grey {text : String} (h : CellText text.toList) : CellText (grey text).toList := by
  exact cellText_append (cellText_command ⟨'c', rfl, by decide⟩ (by decide)
    (cellText_of_forall (by decide))) h

theorem cellText_escape (text : String) : CellText (escape text).toList := by
  rw [escape, String.toList_ofList]
  exact cellText_escapeChars _

theorem ne_of_mem_toDigits {c : Char} {n : Nat} (hc : c ∈ Nat.toDigits 10 n) :
    c ≠ '&' ∧ c ≠ '\\' := by
  have hdigit := Nat.isDigit_of_mem_toDigits (by decide) (by decide) hc
  constructor <;> rintro rfl <;> simp at hdigit

theorem cellText_toString (n : Nat) : CellText (toString n).toList := by
  have hdigits := cellText_of_forall fun c (hc : c ∈ Nat.toDigits 10 n) => ne_of_mem_toDigits hc
  simpa using hdigits

/-- What holds of all hexadecimal digits holds of the characters of a number. -/
theorem forall_mem_hexUpper {p : Char → Prop} (h : ∀ d < 16, p (Nat.digitChar d).toUpper)
    (width n : Nat) : ∀ c ∈ (Text.hexUpper width n).toList, p c := by
  have hdigits : ∀ c ∈ (Nat.toDigits 16 n).map Char.toUpper, p c := by
    induction n using Nat.strongRecOn with
    | _ n ih =>
      by_cases hlt : n < 16
      · rw [Nat.toDigits_of_lt_base hlt]
        exact List.forall_mem_singleton.2 (h n hlt)
      · rw [Nat.toDigits_of_base_le (by decide) (by omega), List.map_append]
        exact List.forall_mem_append.2 ⟨ih (n / 16) (by omega),
          List.forall_mem_singleton.2 (h _ (Nat.mod_lt _ (by decide)))⟩
  rw [Text.hexUpper, Text.toList_padStart, String.toList_ofList]
  refine List.forall_mem_append.2 ⟨fun c hc => ?_, hdigits⟩
  rw [List.eq_of_mem_replicate hc]
  exact h 0 (by decide)

theorem cellText_hexUpper (width n : Nat) : CellText (Text.hexUpper width n).toList :=
  cellText_of_forall (forall_mem_hexUpper (by decide) width n)

/-! ### Cells and rows -/

/-- The texts of a cell cut no row, and do not make it look as if it were over several columns. -/
def Cell.Readable : Cell → Prop
  | .plain text => CellText text.toList
  | .spanning _ format text =>
    '\x7d' ∉ format.toList ∧ Inert format.toList ∧ Inert text.toList

theorem toList_render_spanning (n : Nat) (format text : String) :
    (Cell.spanning n format text).render.toList = "\\multicolumn\x7b".toList ++
      (Nat.toDigits 10 n ++ '\x7d' :: '\x7b' :: (format.toList ++
        '\x7d' :: '\x7b' :: (text.toList ++ ['\x7d']))) := by
  simp [Cell.render, command]

theorem Cell.Readable.inert {cell : Cell} (h : cell.Readable) : Inert cell.render.toList := by
  cases cell with
  | plain text => exact CellText.inert h
  | spanning n format text =>
    have hcommand : Inert "\\multicolumn\x7b".toList :=
      (inert_escaped 'm').append (inert_of_forall (by decide))
    have hdigits : Inert (Nat.toDigits 10 n) := inert_of_forall fun c => ne_of_mem_toDigits
    have hbrace : Inert ['\x7d'] := inert_singleton (by decide) (by decide)
    have hbraces : Inert ['\x7d', '\x7b'] := inert_of_forall (by decide)
    rw [toList_render_spanning]
    exact hcommand.append (hdigits.append (hbraces.append (h.2.1.append (hbraces.append
      (h.2.2.append hbrace)))))

/-- A cell is read over the columns that it takes. -/
theorem Cell.Readable.spanOf_append {cell : Cell} (h : cell.Readable) {rest : List Char}
    (hrest : BeginsPlain rest) : spanOf (cell.render.toList ++ rest) = cell.columns := by
  cases cell with
  | plain text => exact spanOf_of_beginsPlain (CellText.plain h rest hrest)
  | spanning n format text =>
    have hdigits : ∀ tail, (Nat.toDigits 10 n ++ '\x7d' :: tail).takeWhile Char.isDigit =
        Nat.toDigits 10 n := fun tail => by
      rw [List.takeWhile_append_of_pos fun d hd =>
        Nat.isDigit_of_mem_toDigits (by decide) (by decide) hd]
      simp
    have hstrip : ∀ tail, Text.stripStart? "\\multicolumn\x7b".toList (Text.trimStartChars
        ("\\multicolumn\x7b".toList ++ tail)) = some tail := fun tail => rfl
    rw [toList_render_spanning, List.append_assoc, spanOf, hstrip]
    simp only [List.append_assoc, List.cons_append, hdigits,
      Nat.ofDigitChars_toDigits (b := 10) (by decide) (by decide), columns]

section

-- How a piece of a row is read, whatever white space stands before it.
variable {β : Type} {read : List Char → β}
  (hread : ∀ c cs, Text.isBlank c → read (c :: cs) = read cs)

include hread

theorem map_onto_blank {c : Char} (hc : Text.isBlank c) {pieces : List (List Char)}
    (h : pieces ≠ []) : (onto [c] pieces).map read = pieces.map read := by
  cases pieces with
  | nil => exact absurd rfl h
  | cons piece pieces =>
    rw [onto, List.map_cons, List.map_cons]
    exact congrArg (· :: _) (hread c piece hc)

/-- A row is read cell by cell. Behind each cell stands a blank, and the rest of the row behind the
last one. -/
theorem map_splitCells_row {value : Cell → β} {row : List Cell} {rest : List Char} (hne : row ≠ [])
    (h : ∀ cell ∈ row, cell.Readable) (hrest : splitCells false rest = [rest])
    (hgap : ∀ cell ∈ row, read (cell.render.toList ++ [' ']) = value cell)
    (hlast : ∀ cell ∈ row, read (cell.render.toList ++ rest) = value cell) :
    (splitCells false (" & ".toList.intercalate (row.map fun cell => cell.render.toList) ++
      rest)).map read = row.map value := by
  induction row with
  | nil => exact absurd rfl hne
  | cons cell row ih =>
    rw [List.forall_mem_cons] at h hgap hlast
    cases row with
    | nil =>
      have hcells : " & ".toList.intercalate ([cell].map fun cell => cell.render.toList) =
          cell.render.toList := by simp
      rw [hcells, h.1.inert, hrest]
      exact congrArg (fun b => [b]) hlast.1
    | cons next row =>
      have hcells : " & ".toList.intercalate ((cell :: next :: row).map fun cell =>
          cell.render.toList) = cell.render.toList ++ ' ' :: '&' :: ' ' ::
            " & ".toList.intercalate ((next :: row).map fun cell => cell.render.toList) := by
        simp [List.intercalate]
      have hcut : ∀ rest, splitCells false (' ' :: '&' :: ' ' :: rest) =
          [' '] :: onto [' '] (splitCells false rest) := fun rest => by simp [splitCells, onto]
      rw [hcells, List.append_assoc, h.1.inert, List.cons_append, List.cons_append,
        List.cons_append, hcut, onto, List.map_cons, List.map_cons, hgap.1,
        map_onto_blank hread (by decide) (splitCells_ne_nil false _)]
      exact congrArg (value cell :: ·) (ih (by simp) h.2 hgap.2 hlast.2)

/-- White space before a row does not change how it is read. -/
theorem map_splitCells_trimStartChars (cs : List Char) :
    (splitCells false (Text.trimStartChars cs)).map read = (splitCells false cs).map read := by
  induction cs with
  | nil => rfl
  | cons c cs ih =>
    rw [Text.trimStartChars, List.dropWhile_cons]
    split
    case isTrue hblank =>
      have hcut : c ≠ '&' := by
        rintro rfl
        exact absurd hblank (by decide)
      have hescape : c ≠ '\\' := by
        rintro rfl
        exact absurd hblank (by decide)
      rw [← Text.trimStartChars, ih, ← List.singleton_append, inert_singleton hcut hescape,
        map_onto_blank hread hblank (splitCells_ne_nil false cs)]
    case isFalse => rfl

end

theorem toList_renderRow (row : List Cell) : (Table.renderRow row).toList =
    " & ".toList.intercalate (row.map fun cell => cell.render.toList) ++ " \\\\".toList := by
  simp [Table.renderRow, Function.comp_def]

theorem spanOf_cons_blank (c : Char) (cs : List Char) (hc : Text.isBlank c) :
    spanOf (c :: cs) = spanOf cs := by
  have htrim : Text.trimStartChars (c :: cs) = Text.trimStartChars cs :=
    List.dropWhile_cons_of_pos hc
  rw [spanOf, htrim, spanOf]

/-- A row is read as the cells that it was written from. -/
theorem spans_renderRow {row : List Cell} (hne : row ≠ []) (h : ∀ cell ∈ row, cell.Readable) :
    spans (Table.renderRow row) = row.map Cell.columns := by
  have hgap : BeginsPlain [' '] := by decide
  have hend : BeginsPlain " \\\\".toList := by decide
  rw [spans, toList_renderRow]
  exact map_splitCells_row spanOf_cons_blank hne h (by decide)
    (fun cell hcell => (h cell hcell).spanOf_append hgap)
    fun cell hcell => (h cell hcell).spanOf_append hend

theorem spans_trimStart (row : String) : spans (Text.trimStart row) = spans row := by
  rw [spans, spans, Text.trimStart, String.toList_ofList]
  exact map_splitCells_trimStartChars spanOf_cons_blank row.toList

/-! ### Column specifications -/

/-- The text is the format of one column. -/
def IsColumn (format : String) : Prop :=
  ∀ rest, countColumns 0 (format.toList ++ rest) = 1 + countColumns 0 rest

theorem isColumn_centred : IsColumn "c" := fun rest => by simp [countColumns]

theorem isColumn_paragraph {format : String} (width : List Char)
    (hformat : format.toList = 'p' :: '\x7b' :: (width ++ ['\x7d']))
    (h : ∀ c ∈ width, c ≠ '\x7b' ∧ c ≠ '\x7d') : IsColumn format := by
  have hinside : ∀ rest, countColumns 1 (width ++ '\x7d' :: rest) = countColumns 0 rest := by
    intro rest
    clear hformat
    induction width with
    | nil => simp [countColumns]
    | cons c cs ih =>
      rw [List.forall_mem_cons] at h
      simp [countColumns, h.1, ih h.2]
  intro rest
  have happend : format.toList ++ rest = 'p' :: '\x7b' :: (width ++ '\x7d' :: rest) := by
    simp [hformat]
  rw [happend, countColumns, if_neg (by decide), if_neg (by decide), countColumns, if_pos rfl,
    hinside rest]
  rfl

theorem countColumns_join {formats : List String} (h : ∀ f ∈ formats, IsColumn f) :
    countColumns 0 (String.join (formats.map (· ++ "|"))).toList = formats.length := by
  induction formats with
  | nil => simp [countColumns]
  | cons f formats ih =>
    rw [List.forall_mem_cons] at h
    have hbar : ∀ rest, countColumns 0 ('|' :: rest) = countColumns 0 rest := fun rest => by
      simp [countColumns]
    have hcons : (String.join ((f :: formats).map (· ++ "|"))).toList =
        f.toList ++ '|' :: (String.join (formats.map (· ++ "|"))).toList := by simp
    rw [hcons, h.1, hbar, ih h.2, List.length_cons, Nat.add_comm]

/-- The cells can be read back and take `n` columns together. -/
structure RowOver (n : Nat) (row : List Cell) : Prop where
  readable : ∀ cell ∈ row, cell.Readable
  columns : (row.map Cell.columns).sum = n

theorem RowOver.append {m n : Nat} {row row' : List Cell} (h : RowOver m row)
    (h' : RowOver n row') : RowOver (m + n) (row ++ row') where
  readable := List.forall_mem_append.2 ⟨h.readable, h'.readable⟩
  columns := by rw [List.map_append, List.sum_append, h.columns, h'.columns]

theorem rowOver_plain {texts : List String} (h : ∀ text ∈ texts, CellText text.toList) :
    RowOver texts.length (texts.map Cell.plain) where
  readable := List.forall_mem_map.2 h
  columns := by simp [Function.comp_def, Cell.columns]

theorem rowOver_singleton {text : String} (h : CellText text.toList) : RowOver 1 [.plain text] :=
  rowOver_plain (List.forall_mem_singleton.2 h)

theorem rowOver_spanning {n : Nat} {format text : String} (hbrace : '\x7d' ∉ format.toList)
    (hformat : Inert format.toList) (htext : Inert text.toList) :
    RowOver n [.spanning n format text] where
  readable := List.forall_mem_singleton.2 ⟨hbrace, hformat, htext⟩
  columns := by simp [Cell.columns]

/-- Merging equal texts keeps the number of columns. -/
theorem rowOver_mergeFrom {first : Bool} {texts : List String}
    (h : ∀ text ∈ texts, CellText text.toList) : RowOver texts.length (mergeFrom first texts) := by
  fun_induction mergeFrom first texts with
  | case1 => exact ⟨by simp, rfl⟩
  | case2 first text rest run hrun ih =>
    rw [List.forall_mem_cons] at h
    have hle : (rest.takeWhile (· == text)).length ≤ rest.length :=
      (List.takeWhile_sublist _).length_le
    have hlength : (text :: rest).length = run + (rest.drop (run - 1)).length := by
      simp only [List.length_drop, List.length_cons]
      omega
    have hbrace : '\x7d' ∉ (if first = true then "|c|" else "c|").toList := by
      split <;> decide
    have hformat : Inert (if first = true then "|c|" else "c|").toList := by
      split <;> exact inert_of_forall (by decide)
    rw [hlength]
    exact (rowOver_spanning hbrace hformat h.1.inert).append
      (ih fun t ht => h.2 t (List.mem_of_mem_drop ht))
  | case3 first text rest run hrun ih =>
    rw [List.forall_mem_cons] at h
    rw [List.length_cons, Nat.add_comm]
    exact (rowOver_singleton h.1).append (ih h.2)

theorem rowOver_merge {texts : List String} (h : ∀ text ∈ texts, CellText text.toList) :
    RowOver texts.length (merge texts) := rowOver_mergeFrom h

/-- Every row takes as many columns as the table has, and can be read back. -/
structure Table.WellFormed (t : Table) : Prop where
  nonempty : t.columns ≠ []
  columns : ∀ f ∈ t.columns, IsColumn f
  rows : ∀ row ∈ t.rows, RowOver t.columns.length row

theorem Table.WellFormed.countColumns_format {t : Table} (h : t.WellFormed) :
    countColumns 0 t.format.toList = t.columns.length := by
  have hbar : t.format.toList = '|' :: (String.join (t.columns.map (· ++ "|"))).toList := by
    simp [format]
  rw [hbar, ← countColumns_join h.columns]
  simp [countColumns]

/-- The rows of a well formed table are read over all of its columns. -/
theorem Table.WellFormed.sum_spans {t : Table} (h : t.WellFormed) {row : List Cell}
    (hrow : row ∈ t.rows) :
    (spans (renderRow row)).sum = countColumns 0 t.format.toList := by
  have hover := h.rows row hrow
  have hne : row ≠ [] := by
    rintro rfl
    exact h.nonempty (List.length_eq_zero_iff.1 hover.columns.symm)
  rw [spans_renderRow hne hover.readable, hover.columns, h.countColumns_format]

end RegAtlas.Latex
