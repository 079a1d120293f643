import RegAtlas.Proofs.Rename.Repetition
import RegAtlas.Proofs.Rename.Replacement
import RegAtlas.Proofs.Text.NameShape

/-!
# Descriptions after a renaming

A renaming replaces the old names of its report in the descriptions, one after the other in the
order of the report. Descriptions get the new names of the nodes that they mention, unless a new
name is the old name of another node that the report lists later: `a_b` becomes `AB`, and where a
node with the name `AB` becomes `Ab` after that, so does the mention of `a_b`.
-/

namespace RegAtlas

open Text (isAlphanumeric lowerForm upperForm NameCase)
open Mention (IsJoined joins Mentions substitute follow followed)

/-! ### Converted names are words -/

namespace Text

/-- Ranges of the characters that end a mention, apart from the blank. -/
def breakRanges : List (Nat × Nat) :=
  [(0x28, 0x28), (0x2C, 0x2C), (0x2E, 0x2E), (0x5B, 0x5B), (0x7B, 0x7B)]

theorem joins_of_outside {c : Char} (h : Outside (endRanges ++ breakRanges) c.toNat) :
    joins c := by
  obtain ⟨hend, hbreak⟩ := outside_append.1 h
  have hname := endsName_of_outside hend
  simp only [endsName, Bool.or_eq_false_iff] at hname
  have hne : ∀ d : Char, (d.toNat, d.toNat) ∈ breakRanges → (c == d) = false := by
    intro d hd
    rw [beq_eq_false_iff_ne]
    rintro rfl
    have := hbreak _ hd
    omega
  have hblank : (c == ' ') = false := by
    rw [beq_eq_false_iff_ne]
    rintro rfl
    exact absurd hname.1.1.1 (by decide)
  rw [Mention.joins_iff]
  refine ⟨hname.1.1.1, ?_⟩
  simp only [Mention.endsWord, hblank, hne '.' (by decide), hne ',' (by decide),
    hne '[' (by decide), hne '(' (by decide), hne '\x7b' (by decide), Bool.or_self]

theorem outside_breakRanges {n : Nat} (h : ¬n < 0x80) : Outside breakRanges n := by
  have hascii : ∀ r ∈ breakRanges, r.2 < 0x80 := by decide
  exact fun r hr => .inr (Nat.lt_of_lt_of_le (hascii r hr) (Nat.not_lt.1 h))

theorem outside_of_letter {c : Char} (hc : isAlphanumeric c) (hascii : ¬c.toNat < 0x80) :
    Outside (endRanges ++ breakRanges) c.toNat :=
  outside_append.2 ⟨outside_of_isAlphanumeric hc hascii, outside_breakRanges hascii⟩

theorem joins_of_isAlphanumeric {c : Char} (hc : isAlphanumeric c) : joins c := by
  by_cases hascii : c.toNat < 0x80
  case pos =>
    have hall : ∀ c : Char, c.toNat < 0x80 → isAlphanumeric c →
        Outside (endRanges ++ breakRanges) c.toNat := forall_ascii (by decide +kernel)
    exact joins_of_outside (hall c hascii hc)
  case neg => exact joins_of_outside (outside_of_letter hc hascii)

theorem joins_of_mem_upperForm {c d : Char} (hc : isAlphanumeric c) (hd : d ∈ upperForm c) :
    joins d := by
  refine joins_of_outside ?_
  by_cases hascii : c.toNat < 0x80
  case pos =>
    have hall : ∀ c : Char, c.toNat < 0x80 → isAlphanumeric c → ∀ d ∈ upperForm c,
        Outside (endRanges ++ breakRanges) d.toNat := forall_ascii (by decide +kernel)
    exact hall c hascii hc d hd
  case neg =>
    rw [upperForm, if_neg hascii] at hd
    exact outside_of_mem_form (by decide) (by decide +kernel) (by decide +kernel)
      (fun _ => outside_of_letter hc hascii) hd

theorem joins_of_mem_lowerForm {c d : Char} (hc : isAlphanumeric c) (hd : d ∈ lowerForm c) :
    joins d := by
  refine joins_of_outside ?_
  by_cases hascii : c.toNat < 0x80
  case pos =>
    have hall : ∀ c : Char, c.toNat < 0x80 → isAlphanumeric c → ∀ d ∈ lowerForm c,
        Outside (endRanges ++ breakRanges) d.toNat := forall_ascii (by decide +kernel)
    exact hall c hascii hc d hd
  case neg =>
    rw [lowerForm, if_neg hascii] at hd
    exact outside_of_mem_form (by decide) (by decide) (by decide +kernel)
      (fun _ => outside_of_letter hc hascii) hd

theorem isJoined_lowerWord {word : List Char} (h : ∀ c ∈ word, isAlphanumeric c) :
    IsJoined (lowerWord word) := by
  intro d hd
  obtain rfl | ⟨c, hc, hd⟩ := mem_lowerWord hd
  · exact joins_of_outside (by decide)
  · exact joins_of_mem_lowerForm (h c hc) hd

theorem isJoined_convert (target : NameCase) (name : String) :
    IsJoined (target.convert name).toList := by
  have hwords : ∀ word ∈ nameWords name.toList, ∀ c ∈ word, isAlphanumeric c :=
    fun word hword c hc => ((mem_nameWords hword).2 c hc).2
  rw [NameCase.convert, String.toList_ofList]
  cases target with
  | upperCamel =>
    intro d hd
    obtain ⟨word, hword, hd⟩ := List.mem_flatMap.1 hd
    cases word with
    | nil => simp [capitalizeWord] at hd
    | cons c cs =>
      obtain ⟨hc, hcs⟩ := List.forall_mem_cons.1 (hwords _ hword)
      obtain hd | hd := List.mem_append.1 hd
      · exact joins_of_mem_upperForm hc hd
      · exact isJoined_lowerWord hcs d hd
  | snake =>
    intro d hd
    obtain hd | ⟨_, hmem, hd⟩ := mem_intercalate hd
    · obtain rfl := List.mem_singleton.1 hd
      exact joins_of_outside (by decide)
    · obtain ⟨word, hword, rfl⟩ := List.mem_map.1 hmem
      exact isJoined_lowerWord (hwords word hword) d hd

end Text

/-! ### Descriptions and names -/

/-- A change of names leaves the descriptions. -/
theorem Component.descriptions_mapNames (change : NameKind → String → String) (c : Component) :
    (c.mapNames change).descriptions = c.descriptions := by
  have hnode : ∀ (_ : Unit) i, ((naming change).rewrite () i).description? = i.description? :=
    fun _ i => by cases i <;> rfl
  exact (naming_keepsChildren change).filterMap_subtree hnode () (.component c)

/-! ### Renaming with descriptions -/

/-- A name of letters, digits and underscores. -/
def IsIdentifier (name : String) : Prop :=
  name ≠ "" ∧ ∀ c ∈ name.toList, isAlphanumeric c ∨ c = '_'

instance (name : String) : Decidable (IsIdentifier name) :=
  inferInstanceAs (Decidable (_ ∧ ∀ c ∈ name.toList, isAlphanumeric c ∨ c = '_'))

theorem IsIdentifier.isJoined {name : String} (h : IsIdentifier name) : IsJoined name.toList := by
  intro c hc
  obtain hc | rfl := h.2 c hc
  · exact Text.joins_of_isAlphanumeric hc
  · exact Text.joins_of_outside (by decide)

namespace Component

variable {o : RenameOptions} {c : Component} {report : RenameReport}

/-- The names below the component are identifiers. -/
def IdentifierNames (c : Component) : Prop :=
  ∀ s ∈ c.siblings, ∀ name ∈ s.names, IsIdentifier name

instance (c : Component) : Decidable c.IdentifierNames :=
  inferInstanceAs (Decidable (∀ s ∈ c.siblings, ∀ name ∈ s.names, IsIdentifier name))

/-- The pairs of a report: a name below the component, and its conversion where it differs. -/
theorem of_mem_changes {p : String × String} (h : p ∈ c.siblings.flatMap o.changes) :
    (∃ s ∈ c.siblings, p.1 ∈ s.names) ∧ p.2 = o.target.convert p.1 ∧ p.2 ≠ p.1 := by
  obtain ⟨s, hs, hp⟩ := List.mem_flatMap.1 h
  obtain ⟨hp, hne⟩ := List.mem_filter.1 hp
  obtain ⟨name, hname, rfl⟩ := List.mem_map.1 hp
  have hchange : name ≠ o.newName s.kind name := by simpa using hne
  refine ⟨⟨s, hs, hname⟩, ?_, hchange.symm⟩
  by_cases hkind : s.kind ∈ o.kinds
  · exact if_pos hkind
  · exact absurd (if_neg hkind).symm hchange

theorem names_changes (hnames : c.IdentifierNames) :
    Mention.Names (Mention.charPairs (c.siblings.flatMap o.changes)) := by
  intro _ hmem
  obtain ⟨p, hp, rfl⟩ := List.mem_map.1 hmem
  obtain ⟨⟨s, hs, hname⟩, hconvert, -⟩ := of_mem_changes hp
  have hidentifier := hnames s hs p.1 hname
  refine ⟨fun hnil => hidentifier.1 (String.toList_eq_nil_iff.1 hnil), hidentifier.isJoined, ?_⟩
  rw [Prod.map_snd, hconvert]
  exact Text.isJoined_convert o.target p.1

/-- The report of a renaming that changes descriptions. -/
theorem descriptions_eq (hdescriptions : o.descriptions = true)
    (hok : (c.rename o).2 = .ok report) : report.renamed = c.siblings.flatMap o.changes ∧
      report.descriptions =
        (c.descriptions.filterMap (Mention.replaceAll? report.renamed)).length := by
  have hnone := no_fault_of_rename hok
  rw [rename, findSome?_collision?, hnone, descriptions_mapNames] at hok
  by_cases hchanges : c.siblings.flatMap o.changes = []
  · obtain rfl : ⟨[], 0⟩ = report := by simpa [hchanges] using hok
    refine ⟨hchanges.symm, ?_⟩
    have hkept : Mention.replaceAll? [] = fun _ => none := rfl
    simp [hkept]
  · have hreport : RenameReport.mk (c.siblings.flatMap o.changes) (c.descriptions.filterMap
        (Mention.replaceAll? (c.siblings.flatMap o.changes))).length = report := by
      simpa [hdescriptions, hchanges] using hok
    exact hreport ▸ ⟨rfl, rfl⟩

/-- In snake case, no new name made of ASCII characters is changed again. -/
theorem pairwise_of_snake (hsnake : o.target = .snake) (hascii : c.AsciiNames) :
    (c.siblings.flatMap o.changes).Pairwise fun p q => p.2 ≠ q.1 := by
  refine List.pairwise_of_forall_mem_list fun p hp q hq heq => ?_
  obtain ⟨⟨s, hs, hname⟩, hp, -⟩ := of_mem_changes hp
  obtain ⟨-, hq, hne⟩ := of_mem_changes hq
  have hagain := (o.target.convert_convert_iff (hascii s hs p.1 hname)).2 (.inl hsnake)
  rw [← hp, heq, ← hq] at hagain
  exact hne hagain

/-- The descriptions after a renaming of identifiers that changes them. Each mention of an old name
becomes the name that the old name leads to along the report; the report counts the descriptions
with such a mention. A description gets the own conversions of the names that it mentions exactly if
these lead no further. All names lead to their own conversions exactly if no conversion is the old
name of a later node, which holds in snake case of ASCII characters. -/
theorem rename_descriptions (hnames : c.IdentifierNames) (hdescriptions : o.descriptions = true)
    (hok : (c.rename o).2 = .ok report) :
    (∀ p ∈ report.renamed, p.2 = o.target.convert p.1) ∧
    c.RenamedBy o.newName (substitute (followed report.renamed)) (c.rename o).1 ∧
    report.descriptions =
      c.descriptions.countP (fun text => ∃ p ∈ report.renamed, Mentions p.1 text) ∧
    (∀ text, substitute (followed report.renamed) text = substitute report.renamed text ↔
      ∀ p ∈ report.renamed, Mentions p.1 text → follow report.renamed p.1 = p.2) ∧
    ((∀ p ∈ report.renamed, follow report.renamed p.1 = p.2) ↔
      report.renamed.Pairwise fun p q => p.2 ≠ q.1) ∧
    (o.target = .snake → c.AsciiNames → report.renamed.Pairwise fun p q => p.2 ≠ q.1) := by
  obtain ⟨hrenamed, hcount⟩ := descriptions_eq hdescriptions hok
  rw [hrenamed] at hcount ⊢
  have hpairs := names_changes (o := o) hnames
  have hconvert : ∀ p ∈ c.siblings.flatMap o.changes, p.2 = o.target.convert p.1 := fun p hp =>
    (of_mem_changes hp).2.1
  refine ⟨hconvert, ?_, ?_, fun text => hpairs.substitute_followed_iff hconvert,
    Mention.follow_eq_snd_iff hconvert fun p hp => (of_mem_changes hp).2.2, pairwise_of_snake⟩
  · obtain ⟨count, hrename⟩ := rename_of_no_fault (no_fault_of_rename hok)
    have hreword : o.reword c = substitute (followed (c.siblings.flatMap o.changes)) := by
      funext text
      rw [RenameOptions.reword, if_pos hdescriptions, hpairs.getD_replaceAll?]
    rw [renamedBy_iff, hrename, hreword]
  · rw [hcount, List.length_filterMap_eq_countP]
    refine List.countP_congr fun text _ => ?_
    rw [Mention.replaceAll?_isSome_iff hpairs.replaces, decide_eq_true_iff]

/-- Maps of which one mentions itself and the other. -/
def mentioning (first second : String) : Component where
  memoryMaps := [{ name := first, description := some ("uses " ++ first ++ " and " ++ second) },
    { name := second }]

theorem rename_descriptions_words :
    (mentioning "RX_DATA" "tx").IdentifierNames ∧
    ((mentioning "RX_DATA" "tx").rename { target := .upperCamel, descriptions := true }).2 =
      .ok ⟨[("RX_DATA", "RxData"), ("tx", "Tx")], 1⟩ ∧
    (∀ p ∈ [("RX_DATA", "RxData"), ("tx", "Tx")],
      follow [("RX_DATA", "RxData"), ("tx", "Tx")] p.1 = p.2) ∧
    substitute [("RX_DATA", "RxData"), ("tx", "Tx")] "uses RX_DATA and tx" =
      "uses RxData and Tx" := by
  have hok : ((mentioning "RX_DATA" "tx").rename
      { target := .upperCamel, descriptions := true }).2 =
        .ok ⟨[("RX_DATA", "RxData"), ("tx", "Tx")], 1⟩ := by decide +kernel
  obtain ⟨-, -, -, -, hfollow, -⟩ := rename_descriptions (by decide) rfl hok
  exact ⟨by decide, hok, hfollow.2 (by decide), by decide +kernel⟩

/-- The new name of the first map is the old name of the second one, so that its mention does not
become `AB`. -/
theorem rename_descriptions_chain :
    (mentioning "a_b" "AB").IdentifierNames ∧
    (mentioning "a_b" "AB").rename { target := .upperCamel, descriptions := true } =
      ({ memoryMaps := [{ name := "AB", description := some "uses Ab and Ab" },
          { name := "Ab" }] }, .ok ⟨[("a_b", "AB"), ("AB", "Ab")], 1⟩) ∧
    substitute [("a_b", "AB"), ("AB", "Ab")] "uses a_b and AB" = "uses AB and Ab" ∧
    "uses Ab and Ab" ≠ "uses AB and Ab" := by
  have hok : ((mentioning "a_b" "AB").rename { target := .upperCamel, descriptions := true }).2 =
      .ok ⟨[("a_b", "AB"), ("AB", "Ab")], 1⟩ := by decide +kernel
  have hfirst : NameCase.upperCamel.convert "a_b" = "AB" := by decide +kernel
  have hsecond : NameCase.upperCamel.convert "AB" = "Ab" := by decide +kernel
  have hreword : RenameOptions.reword { target := .upperCamel, descriptions := true }
      (mentioning "a_b" "AB") "uses a_b and AB" = "uses Ab and Ab" := by decide +kernel
  refine ⟨by decide, Prod.ext ?_ hok, by decide +kernel, by decide⟩
  obtain ⟨count, hrename⟩ := rename_of_no_fault (no_fault_of_rename hok)
  rw [hrename, mapDescriptions_mapNames]
  simp [mentioning, MemoryMap.mapDescriptions_mapNames, RenameOptions.newName, NameKind.all,
    hfirst, hsecond]
  exact hreword

end Component

end RegAtlas
