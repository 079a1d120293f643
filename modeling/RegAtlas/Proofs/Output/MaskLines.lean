import RegAtlas.Proofs.Output.HeaderNames
import RegAtlas.Proofs.Output.KernelHeader

/-!
# Masks of kernel headers

The masks that the lines of a kernel header define, read off these lines with their bits.
-/

namespace RegAtlas.KernelHeader

open Output Text LineWriter LineReader

/-! ### Reading masks -/

/-- The lowest and the highest bit that a mask is written with. -/
def bitsOn? (value : List Char) : Option (Nat × Nat) :=
  match stripStart? "BIT(".toList value with
  | some bit => some (numberAt bit, numberAt bit)
  | none => (stripStart? "GENMASK(".toList value).map fun bounds =>
    (numberAt ((bounds.dropWhile (· != ',')).drop 2), numberAt bounds)

/-- The mask that a line defines, with its name, its lowest and its highest bit. -/
def maskOn? (line : String) : Option (String × Nat × Nat) :=
  (stripStart? "#define ".toList line.toList).bind fun definition =>
    (bitsOn? ((definition.dropWhile (! isBlank ·)).dropWhile isBlank)).map fun bits =>
      (String.ofList (definition.takeWhile (! isBlank ·)), bits)

/-- The masks in the lines of a text. -/
def masks (w : LineWriter) : List (String × Nat × Nat) := w.shown.filterMap maskOn?

/-- A line that is no definition. -/
theorem maskOn?_eq_none {line : String} (h : ¬ "#define ".toList <+: line.toList) :
    maskOn? line = none := by
  have hstrip : stripStart? "#define ".toList line.toList = none :=
    if_neg (mt List.isPrefixOf_iff_prefix.1 h)
  rw [maskOn?, hstrip, Option.bind_none]

theorem maskOn?_of_head? {line : String} (h : line.toList.head? ≠ some '#') :
    maskOn? line = none := by
  refine maskOn?_eq_none fun ⟨rest, hrest⟩ => h ?_
  rw [← hrest]
  rfl

/-- A definition without a value. -/
theorem maskOn?_define {name : String} (hname : IsPlainName name) :
    maskOn? s!"#define {name}" = none := by
  have hlist : s!"#define {name}".toList = "#define ".toList ++ name.toList := by simp
  have hshown : ∀ c ∈ name.toList, (! isBlank c) = true := fun c hc => by
    simp [isBlank_of_endsName (hname c hc)]
  have hnothing : name.toList.dropWhile (! isBlank ·) = [] := List.dropWhile_eq_nil_iff.2 hshown
  rw [maskOn?, hlist, stripStart?_append, Option.bind_some, hnothing]
  rfl

theorem maskOn?_of_isCommentary {line : String} (h : IsCommentary '/' line) :
    maskOn? line = none := by
  refine maskOn?_of_head? ?_
  obtain rfl | hhead := h
  · decide
  · rw [hhead]
    decide

/-- The bits of a mask are read back from its value. -/
theorem bitsOn?_render (k : Mask) : bitsOn? k.render.toList = some (k.low, k.high) := by
  unfold Mask.render
  split
  case isTrue h =>
    have hlist : s!"BIT({k.low})".toList = "BIT(".toList ++ ((toString k.low).toList ++ [')']) := by
      simp
    rw [bitsOn?, hlist, stripStart?_append, h]
    exact congrArg some (Prod.ext (numberAt_toString_append _ (by decide) [])
      (numberAt_toString_append _ (by decide) []))
  case isFalse =>
    have hlist : s!"GENMASK({k.high}, {k.low})".toList = "GENMASK(".toList ++
        ((toString k.high).toList ++ ',' :: ' ' :: ((toString k.low).toList ++ [')'])) := by
      simp
    have hbit : stripStart? "BIT(".toList ("GENMASK(".toList ++
        ((toString k.high).toList ++ ',' :: ' ' :: ((toString k.low).toList ++ [')']))) = none :=
      if_neg (by simp [List.isPrefixOf])
    have hcomma : ∀ c ∈ (toString k.high).toList, (c != ',') = true := by
      intro c hc
      rw [bne_iff_ne]
      rintro rfl
      rw [Nat.toString_eq_repr, Nat.toList_repr] at hc
      exact absurd (Nat.isDigit_of_mem_toDigits (by decide) (by decide) hc) (by decide)
    rw [bitsOn?, hlist, hbit]
    simp only [stripStart?_append, Option.map_some, Option.some.injEq, Prod.mk.injEq]
    rw [List.dropWhile_append_of_pos hcomma, List.dropWhile_cons_of_neg (by decide)]
    exact ⟨numberAt_toString_append _ (by decide) [], numberAt_toString_append _ (by decide) _⟩

/-- What the definition of a mask tells. -/
def Mask.definition (k : Mask) : String × Nat × Nat := (k.name, k.low, k.high)

/-- The line of a mask. -/
def maskLine (pad : Nat) (k : Mask) : String := s!"#define {padEnd pad k.name} {k.render}"

/-- A mask is read back from its line. -/
theorem maskOn?_maskLine (pad : Nat) {k : Mask} (hname : IsPlainName k.name) :
    maskOn? (maskLine pad k) = some k.definition := by
  have hlist : (maskLine pad k).toList = "#define ".toList ++ (k.name.toList ++
      ((List.replicate (pad - k.name.length) ' ' ++ [' ']) ++ k.render.toList)) := by
    simp [maskLine, toList_padEnd]
  have hshown : ∀ c ∈ k.name.toList, (! isBlank c) = true := fun c hc => by
    simp [isBlank_of_endsName (hname c hc)]
  -- The padding begins with a blank, and the value does not.
  obtain ⟨blanks, hblanks⟩ : ∃ blanks,
      List.replicate (pad - k.name.length) ' ' ++ [' '] = ' ' :: blanks :=
    ⟨List.replicate (pad - k.name.length) ' ', by rw [← List.replicate_succ', List.replicate_succ]⟩
  have hvalue : k.render.toList.dropWhile isBlank = k.render.toList := by
    unfold Mask.render
    split <;> simp <;> decide
  rw [maskOn?, hlist, stripStart?_append, Option.bind_some, List.takeWhile_append_of_pos hshown,
    List.dropWhile_append_of_pos hshown, hblanks, List.cons_append,
    List.takeWhile_cons_of_neg (by decide), List.dropWhile_cons_of_neg (by decide),
    List.append_nil, String.ofList_toList, ← List.cons_append, ← hblanks,
    List.dropWhile_append_of_pos fun _ => isBlank_of_mem_padding, hvalue, bitsOn?_render,
    Option.map_some, Mask.definition]

/-! ### Writing masks -/

theorem isBlank_slash : isBlank '/' = false := by decide

/-- Collects the masks. -/
def maskReader : LineReader (List (String × Nat × Nat)) (String × Nat × Nat) :=
  collect isBlank_slash maskOn? fun _ => maskOn?_of_isCommentary

variable {w : LineWriter} {waiting : List String} {found : List (String × Nat × Nat)}

/-- A line that begins with another character than a definition. -/
theorem maskReader_step {text : String} {c : Char} (hhead : text.toList.head? = some c)
    (hc : c ≠ '#' ∧ isBlank c = false) (found : List (String × Nat × Nat)) :
    maskReader.step (maskReader.state found) (trimStart text) = maskReader.state found := by
  refine collect_step_none (maskOn?_of_head? ?_) found
  rw [trimStart_of_head? hhead hc.2, hhead]
  exact fun h => hc.1 (Option.some.inj h)

theorem maskOn?_addressLine (lead : String) (pad : Nat) (x : Register × Nat) :
    maskOn? (trimStart (CHeader.addressLine lead pad x)) = none := by
  obtain ⟨c, hhead, hc⟩ := (CHeader.declaresEnumerator_address
    (isPlainName_shoutingSnake (withLead lead x.1.name)) pad x.2).head?
  refine maskOn?_of_head? fun hhash => ?_
  obtain rfl : c = '#' := Option.some.inj (hhead.symm.trans hhash)
  exact hc.elim (by decide) (hash_not_mem_shoutingSnake _)

/-- The enum of addresses defines no masks. -/
theorem finds_addressEnum (m : MemoryMap) (lead : String) (pad : Nat)
    (entries : List (Register × Nat)) (h : maskReader.Finds w waiting found) :
    maskReader.Finds (writeAddressEnum m lead pad entries w) waiting found := by
  have hopen := ((h.comment (note s!"{m.name} memory map")).line
    ("enum " ++ NameCase.snake.convert (withLead lead m.name) ++ " \x7b")
    (maskReader_step (c := 'e') (by simp) (by decide) found)).indent
  have hbody := hopen.writeLines (CHeader.addressLine lead pad) (fun _ => []) entries
    fun found x _ => by
      rw [List.append_nil]
      exact collect_step_none (maskOn?_addressLine lead pad x) found
  rw [List.flatMap_eq_nil_iff.2 fun _ _ => rfl, List.append_nil] at hbody
  exact hbody.dedent.line "\x7d;" (maskReader_step (c := '\x7d') (by decide) (by decide) found)

/-- The masks of a word are in its lines. -/
theorem finds_word {word : Word} (hplain : ∀ k ∈ word.masks, IsPlainName k.name)
    (h : maskReader.Finds w waiting found) :
    maskReader.Finds (writeWord w word) waiting (found ++ word.masks.map Mask.definition) := by
  have hlines (v : LineWriter) (hv : maskReader.Finds v waiting found) := hv.writeLines
    (maskLine word.pad) (fun k => [k.definition]) word.masks fun found k hk => by
      rw [trimStart_of_head? (c := '#') (by simp [maskLine]) (by decide)]
      exact collect_step_some (maskOn?_maskLine word.pad (hplain k hk)) found
  simp only [← List.map_eq_flatMap] at hlines
  exact (hlines _ (h.comment _)).blank

/-- Writing a word adds its masks to those in the lines. -/
theorem masks_writeWord {word : Word} (hplain : ∀ k ∈ word.masks, IsPlainName k.name)
    (hmark : w.style.commentChar = '/') :
    masks (writeWord w word) = masks w ++ word.masks.map Mask.definition :=
  filterMap_shown_of_finds (finds_word hplain (finds_filterMap_shown hmark))

theorem finds_region {region : Region} (hplain : ∀ k ∈ region.masks, IsPlainName k.name)
    (h : maskReader.Finds w waiting found) :
    maskReader.Finds (writeRegion w region) waiting
      (found ++ region.masks.map Mask.definition) := by
  rw [Region.masks, List.map_flatMap]
  exact (h.comment _).blank.foldl writeWord _ region.words fun v found hv word hword =>
    finds_word (fun k hk => hplain k (List.mem_flatMap_of_mem hword hk)) hv

/-- The lines of a header define the masks of its content and no others. -/
theorem masks_write {o : OutputOptions} {c : Content}
    (hplain : ∀ k ∈ c.masks, IsPlainName k.name) :
    masks (write o c) = c.masks.map Mask.definition := by
  have hpass (text : String) (hhead : text.toList.head? = some '#') (hnone : maskOn? text = none)
      (found) : maskReader.step (maskReader.state found) (trimStart text) =
        maskReader.state found := by
    rw [trimStart_of_head? hhead (by decide)]
    exact collect_step_none hnone found
  have hguard : IsPlainName (guardName o) :=
    isPlainName_append (isPlainName_append (by decide) (isPlainName_shoutingSnake _)) (by decide)
  have hbegin : maskReader.Finds (beginHeader o) [s!"#endif /* {guardName o} */"] [] :=
    ((((LineReader.finds_beginText rfl o).line s!"#ifndef {guardName o}"
      (hpass _ (by simp) (maskOn?_eq_none (by simp)) [])).line s!"#define {guardName o}"
      (hpass _ (by simp) (maskOn?_define hguard) [])).defer _).blank
  have hinclude := (hbegin.line "#include <linux/bits.h>"
    (hpass _ (by decide) (by decide) [])).blank
  have haddresses := (finds_addressEnum c.map o.lead c.addressPad c.addresses hinclude).blank
  have hregions := haddresses.foldl writeRegion (fun region => region.masks.map Mask.definition)
    c.regions fun v found hv region hregion =>
      finds_region (fun k hk => hplain k (List.mem_flatMap_of_mem hregion hk)) hv
  have hall := hregions.flushAll
    (hpass s!"#endif /* {guardName o} */" (by simp) (maskOn?_eq_none (by simp)) _)
  rw [Content.masks, List.map_flatMap]
  exact filterMap_shown_of_finds hall

theorem plain_masksOf (wordBytes : Nat) (group : List Register) :
    ∀ k ∈ masksOf wordBytes group, IsPlainName k.name := by
  intro k hk
  obtain ⟨register, hname⟩ := exists_name_of_mem_masksOf hk
  rw [hname]
  exact isPlainName_append (isPlainName_append (isPlainName_append (by decide)
    (isPlainName_shoutingSnake register)) (by decide)) (isPlainName_shoutingSnake k.field.name)

theorem plain_contentOf (o : OutputOptions) (m : MemoryMap) :
    ∀ k ∈ (contentOf o m).masks, IsPlainName k.name := by
  intro k hk
  obtain ⟨g, -, hk⟩ := mem_masks_contentOf.1 hk
  exact plain_masksOf o.wordBytes g k hk

end RegAtlas.KernelHeader
