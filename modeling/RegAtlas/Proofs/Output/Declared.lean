import Mathlib.Data.List.DropRight
import RegAtlas.Ipxact.Reader
import RegAtlas.Proofs.LineWriter.Shown
import RegAtlas.Proofs.Output.Basic
import RegAtlas.Proofs.Text.NameShape

/-!
# Declared names

How a name is read off a declaration, and what readers of generated texts pass over in all of them.
-/

namespace RegAtlas

open Text LineWriter

namespace Output

@[simp] theorem toString_string (s : String) : toString s = s := rfl

/-- The name at the beginning of a text, behind white space. -/
def nameAt (cs : List Char) : String :=
  String.ofList ((cs.dropWhile isBlank).takeWhile (! endsName ·))

theorem nameAt_of_blank {blanks : List Char} (h : ∀ b ∈ blanks, isBlank b) (cs : List Char) :
    nameAt (blanks ++ cs) = nameAt cs := by
  rw [nameAt, List.dropWhile_append_of_pos h, nameAt]

theorem nameAt_trimStart (text : String) : nameAt (trimStart text).toList = nameAt text.toList := by
  rw [nameAt, trimStart, String.toList_ofList, trimStartChars, List.dropWhile_idempotent, nameAt]

theorem isBlank_of_endsName {c : Char} (h : endsName c = false) : isBlank c = false := by
  simp only [endsName, Bool.or_eq_false_iff] at h
  exact h.1.1.1

/-- A plain name is read up to the character that ends it, over the blanks before that. -/
theorem nameAt_append {name : String} {blanks rest : List Char} {c : Char}
    (hname : IsPlainName name) (hblanks : ∀ b ∈ blanks, isBlank b) (hc : endsName c)
    (hshown : isBlank c = false) : nameAt (name.toList ++ (blanks ++ c :: rest)) = name := by
  have hends : ∀ b ∈ blanks, endsName b := fun b hb => by simp [endsName, hblanks b hb]
  have htake : (blanks ++ c :: rest).takeWhile (! endsName ·) = [] := by
    cases blanks with
    | nil => simp [hc]
    | cons b blanks => simp [hends b List.mem_cons_self]
  cases hcs : name.toList with
  | nil =>
    rw [List.nil_append, nameAt_of_blank hblanks, nameAt,
      List.dropWhile_cons_of_neg (by simp [hshown]),
      List.takeWhile_cons_of_neg (by simp [hc]), ← hcs, String.ofList_toList]
  | cons d ds =>
    have hd : isBlank d = false := isBlank_of_endsName (hname d (by simp [hcs]))
    have hplain : ∀ x ∈ d :: ds, (! endsName x) = true := fun x hx => by
      simp [hname x (hcs ▸ hx)]
    rw [nameAt, List.cons_append, List.dropWhile_cons_of_neg (by simp [hd]), ← List.cons_append,
      List.takeWhile_append_of_pos hplain, htake, List.append_nil, ← hcs, String.ofList_toList]

theorem toList_padEnd (width : Nat) (s : String) :
    (padEnd width s).toList = s.toList ++ List.replicate (width - s.length) ' ' := by
  rw [padEnd, String.toList_append, String.toList_ofList]

/-- What pads a name, with the blank behind it. -/
theorem isBlank_of_mem_padding {n : Nat} {b : Char} (h : b ∈ List.replicate n ' ' ++ [' ']) :
    isBlank b := by
  obtain rfl : b = ' ' := by
    obtain h | h := List.mem_append.1 h
    · exact List.eq_of_mem_replicate h
    · exact List.mem_singleton.1 h
  decide

theorem isPlainName_append {s t : String} (hs : IsPlainName s) (ht : IsPlainName t) :
    IsPlainName (s ++ t) := by
  intro c hc
  rw [String.toList_append, List.mem_append] at hc
  exact hc.elim (hs c) (ht c)

theorem isPlainName_toString (n : Nat) : IsPlainName (toString n) := by
  intro c hc
  rw [Nat.toString_eq_repr, Nat.toList_repr] at hc
  have hdigit := Nat.isDigit_of_mem_toDigits (by decide) (by decide) hc
  have hascii : ∀ c : Char, c.toNat < 0x80 → c.isDigit → endsName c = false :=
    forall_ascii (by decide)
  refine hascii c ?_ hdigit
  simp only [Char.isDigit, Bool.and_eq_true, decide_eq_true_eq] at hdigit
  have hle : c.toNat ≤ 57 := hdigit.2
  omega

end Output

/-! ### What a memory map names -/

namespace Output

/-- The registers of all blocks. -/
def registersOf (m : MemoryMap) : List Register := m.blocks.flatMap (·.registers)

/-- The enumerated values of all fields that a text describes. -/
def valuesOf (m : MemoryMap) : List EnumValue :=
  (registerBlocks m).flatMap fun b => b.registers.flatMap fun r => r.fields.flatMap (·.enumValues)

theorem map_fst_addressesOf_perm (m : MemoryMap) :
    ((addressesOf m).map Prod.fst).Perm (registersOf m) := by
  have hfst : (addressesOf m).map Prod.fst = m.blocks.flatMap (·.registersInOrder) := by
    simp [addressesOf, List.map_flatMap, Function.comp_def]
  rw [hfst]
  exact .flatMap_left _ fun b _ => WordGroup.inOrder_perm _ _

theorem flatMap_enumValues_perm (m : MemoryMap) :
    ((fieldsOf m).flatMap fun x => x.2.enumValues).Perm (valuesOf m) := by
  refine ((fieldsOf_perm m).flatMap_right _).trans (.of_eq ?_)
  simp only [valuesOf, List.flatMap_assoc, List.flatMap_map]

/-! ### A document with fields of one name -/

/-- An element with what stands between its tags. -/
def element (name : String) (content : List String) : List String :=
  ["<", name, ">"] ++ content ++ ["</", name, ">"]

/-- A register of one byte with a field `en` of one bit, which has a value `on`. -/
def enabledRegister (name offset : String) : List String :=
  let value := element "enumeratedValue" (element "name" ["on"] ++ element "value" ["1"])
  let field := element "field" (element "name" ["en"] ++ element "offset" ["0"] ++
    element "width" ["1"] ++ element "enumeratedValues" value)
  element "register" (element "name" [name] ++ element "offset" [offset] ++
    element "size" ["8"] ++ field)

/-- A document with two such registers in one access word. -/
def sharedNames : String :=
  let block := element "addressBlock" (element "baseAddress" ["0"] ++
    enabledRegister "rx" "0" ++ enabledRegister "tx" "1")
  String.join (element "component" (["<vendor/>", "<library/>", "<name/>", "<version/>"] ++
    element "memoryMaps" (element "memoryMap" block)))

/-- A field as a document shows it, with the names of its values. -/
structure FieldSketch where
  name : String
  start : Nat
  count : Nat
  values : List String
  deriving DecidableEq

/-- A register as a document shows it. -/
structure RegisterSketch where
  name : String
  start : Nat
  fields : List FieldSketch
  deriving DecidableEq

def sketchOf (r : Register) : RegisterSketch where
  name := r.name
  start := r.start
  fields := r.fields.map fun f => ⟨f.name, f.start, f.count, f.enumValues.map (·.name)⟩

/-- A register as in the document. -/
def enabledSketch (name : String) (start : Nat) : RegisterSketch where
  name
  start
  fields := [⟨"en", 0, 1, ["on"]⟩]

theorem read_sharedNames : ((Ipxact.read sharedNames).toOption.map fun reading =>
    (reading.component.memoryMap? none).map fun m =>
      (m.blocks.map fun b => (b.isMemory, b.registers.map sketchOf), decide (AddressesDefined m ∧
        EveryField m fun r f => WordGroup.BitsDefined 4 r f ∧ f.ValuesDefined))) =
    some (some ([(false, [enabledSketch "rx" 0, enabledSketch "tx" 1])], true)) := by
  rw [Ipxact.read, Ipxact.readFrom, Ipxact.ingest, Xml.parse?, sharedNames, String.toList_join]
  decide +kernel

/-- What a register with that sketch consists of. -/
structure Enabled (name : String) (start : Nat) (r : Register) (f : BitField) (e : EnumValue) :
    Prop where
  name_eq : r.name = name
  start_eq : r.start = start
  fields_eq : r.fields = [f]
  field_name : f.name = "en"
  field_start : f.start = 0
  field_count : f.count = 1
  values_eq : f.enumValues = [e]
  value_name : e.name = "on"

theorem exists_enabled {name : String} {start : Nat} {r : Register}
    (h : sketchOf r = enabledSketch name start) : ∃ f e, Enabled name start r f e := by
  simp only [sketchOf, enabledSketch, RegisterSketch.mk.injEq, List.map_eq_cons_iff,
    List.map_eq_nil_iff, FieldSketch.mk.injEq] at h
  obtain ⟨hname, hstart, f, _, hf, ⟨hfield, hbit, hcount, e, _, he, hvalue, rfl⟩, rfl⟩ := h
  exact ⟨f, e, hname, hstart, hf, hfield, hbit, hcount, he, hvalue⟩

/-- The document is read as a map with two registers in one block. -/
theorem exists_sharedNames : ∃ reading m b r t f e g d, Ipxact.read sharedNames = .ok reading ∧
    reading.component.memoryMap? none = some m ∧
    (AddressesDefined m ∧
      EveryField m fun r f => WordGroup.BitsDefined 4 r f ∧ f.ValuesDefined) ∧
    m.blocks = [b] ∧ b.isMemory = false ∧ b.registers = [r, t] ∧
    Enabled "rx" 0 r f e ∧ Enabled "tx" 1 t g d := by
  obtain ⟨reading, hread, hvalue⟩ := exists_ok_of_map_toOption read_sharedNames
  obtain ⟨m, hm, hvalue⟩ := Option.map_eq_some_iff.1 hvalue
  obtain ⟨hsketch, hdefined⟩ := Prod.mk.inj hvalue
  simp only [List.map_eq_cons_iff, List.map_eq_nil_iff, Prod.mk.injEq] at hsketch
  obtain ⟨b, _, hblocks, ⟨hmemory, r, _, hregisters, hr, t, _, rfl, ht, rfl⟩, rfl⟩ := hsketch
  obtain ⟨f, e, hr⟩ := exists_enabled hr
  obtain ⟨g, d, ht⟩ := exists_enabled ht
  exact ⟨reading, m, b, r, t, f, e, g, d, hread, hm, of_decide_eq_true hdefined, hblocks, hmemory,
    hregisters, hr, ht⟩

end Output

/-! ### The beginning of a text -/

namespace LineReader

variable {σ β : Type} {R : LineReader σ β} {w : LineWriter} {waiting : List String} {found : List β}

theorem Finds.preamble (h : R.Finds w waiting found) (license : Option String) :
    R.Finds (Output.preamble license w) waiting found := by
  cases license with
  | none => exact (h.comment _).blank
  | some text => exact (((h.commentLines text).blank).comment _).blank

theorem finds_beginText (hstart : R.state [] = R.start) (o : OutputOptions) :
    R.Finds (Output.beginText o R.mark) [] [] :=
  Finds.preamble (w := { style := o.style.withCommentChar R.mark }) ⟨rfl, rfl, hstart.symm⟩
    o.license

end LineReader

end RegAtlas
