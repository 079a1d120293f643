import RegAtlas.Proofs.Outline.Lines

/-!
# Indentation of an outline

Where no text of a component holds a line feed, the printed outline has one line for each shown
node, in the order of the nodes, indented by two blanks for each owner. The owner of a node then has
the last line before it that is indented by two blanks less, so that the indentation alone tells
which node owns which.
-/

namespace RegAtlas

/-! ### Owners from indentation -/

/-- The path to the owner of the node at a path. -/
def ownerPath? : List Nat → Option (List Nat)
  | [] => none
  | n :: path => some (n :: path).dropLast

theorem ownerPath?_concat (path : List Nat) (n : Nat) : ownerPath? (path ++ [n]) = some path := by
  cases path with
  | nil => rfl
  | cons m path =>
    rw [List.cons_append, ownerPath?, ← List.cons_append, List.dropLast_concat]

/-- The last line before a line that is indented by two blanks less. -/
def ownerLine? (indents : List Nat) (k : Nat) : Option Nat :=
  (List.range k).reverse.find? fun j => indents[j]?.map (· + 2) = indents[k]?

theorem find?_reverse_range {p : Nat → Bool} {j k : Nat} (hjk : j < k) (hj : p j)
    (hlast : ∀ m, j < m → m < k → p m = false) : (List.range k).reverse.find? p = some j := by
  induction k with
  | zero => omega
  | succ k ih =>
    rw [List.range_succ, List.reverse_concat, List.find?_cons]
    rcases Nat.lt_succ_iff_lt_or_eq.1 hjk with hlt | rfl
    · rw [hlast k hlt (Nat.lt_succ_self k)]
      exact ih hlt fun m hm hmk => hlast m hm (Nat.lt_succ_of_lt hmk)
    · rw [hj]

/-- Paths of a tree in the order of its nodes, each with the path to its owner. -/
structure InTreeOrder (paths : List (List Nat)) : Prop where
  descends : paths.Pairwise fun path path' => ¬ path' <+: path
  siblings : paths.Pairwise fun path path' =>
    ∀ start k k', start ++ [k] <+: path → start ++ [k'] <+: path' → k ≤ k'
  owned : ∀ path n, path ++ [n] ∈ paths → path ∈ paths

theorem pairwise_getElem? {α : Type} {R : α → α → Prop} {as : List α} (h : as.Pairwise R)
    {j k : Nat} {a b : α} (hj : as[j]? = some a) (hk : as[k]? = some b) (hjk : j < k) : R a b := by
  obtain ⟨hj', rfl⟩ := List.getElem?_eq_some_iff.1 hj
  obtain ⟨hk', rfl⟩ := List.getElem?_eq_some_iff.1 hk
  exact List.pairwise_iff_getElem.1 h j k hj' hk' hjk

/-- Two lists of one length part at some place. -/
theorem exists_parting {α : Type} {as bs : List α} (hlength : as.length = bs.length)
    (hne : as ≠ bs) :
    ∃ start a b, a ≠ b ∧ start ++ [a] <+: as ∧ start ++ [b] <+: bs := by
  induction as generalizing bs with
  | nil => exact absurd (List.length_eq_zero_iff.1 hlength.symm).symm hne
  | cons a as ih =>
    cases bs with
    | nil => simp at hlength
    | cons b bs =>
      by_cases heq : a = b
      · subst heq
        obtain ⟨start, a', b', hab, ha, hb⟩ := ih (by simpa using hlength) (by simpa using hne)
        exact ⟨a :: start, a', b', hab, by simpa using ha, by simpa using hb⟩
      · exact ⟨[], a, b, heq, by simp, by simp⟩

namespace InTreeOrder

variable {paths : List (List Nat)} {path path' : List Nat} {j k m n : Nat}

/-- Between a node and a node that it owns stand nodes below it only. -/
theorem length_ne (h : InTreeOrder paths) (hj : paths[j]? = some path)
    (hm : paths[m]? = some path') (hk : paths[k]? = some (path ++ [n])) (hjm : j < m)
    (hmk : m < k) : path'.length ≠ path.length := by
  intro hlength
  have hne : path ≠ path' := fun heq =>
    pairwise_getElem? h.descends hj hm hjm (heq ▸ List.prefix_rfl)
  obtain ⟨start, a, b, hab, ha, hb⟩ := exists_parting hlength.symm hne
  have hle := pairwise_getElem? h.siblings hj hm hjm start a b ha hb
  have hge := pairwise_getElem? h.siblings hm hk hmk start b a hb
    (ha.trans (List.prefix_append path [n]))
  omega

/-- The owner of a node stands before it. -/
theorem exists_owner (h : InTreeOrder paths) (hk : paths[k]? = some (path ++ [n])) :
    ∃ j < k, paths[j]? = some path := by
  obtain ⟨j, hj⟩ := List.mem_iff_getElem?.1 (h.owned path n (List.mem_of_getElem? hk))
  refine ⟨j, ?_, hj⟩
  rcases Nat.lt_trichotomy j k with hlt | rfl | hgt
  · exact hlt
  · simp [hj] at hk
  · exact absurd (List.prefix_append path [n]) (pairwise_getElem? h.descends hk hj hgt)

/-- The indentation tells the owner of each node. -/
theorem ownerLine?_eq (h : InTreeOrder paths) (hk : paths[k]? = some path) :
    (ownerLine? (paths.map fun path => 2 * path.length) k).bind (paths[·]?) = ownerPath? path := by
  have hindent {m : Nat} : (paths.map fun path => 2 * path.length)[m]? =
      paths[m]?.map fun path => 2 * path.length := List.getElem?_map
  rcases List.eq_nil_or_concat path with rfl | ⟨path, n, rfl⟩
  · have hnone : ownerLine? (paths.map fun path => 2 * path.length) k = none := by
      refine List.find?_eq_none.2 fun j _ => ?_
      simp only [hindent, hk]
      cases paths[j]? <;> simp
    rw [hnone]
    rfl
  · rw [List.concat_eq_append] at hk ⊢
    obtain ⟨j, hjk, hj⟩ := h.exists_owner hk
    have hline : ownerLine? (paths.map fun path => 2 * path.length) k = some j := by
      refine find?_reverse_range hjk ?_ fun m hjm hmk => ?_
      · simp [hindent, hj, hk, Nat.mul_add]
      · simp only [hindent, hk]
        cases hm : paths[m]? with
        | none => simp
        | some path' =>
          have hne := h.length_ne hj hm hk hjm hmk
          simp
          omega
    rw [hline, Option.bind_some, hj, ownerPath?_concat]

example : ownerLine? [0, 2, 4, 6, 4, 6, 2] 5 = some 4 := by decide

end InTreeOrder

theorem Component.inTreeOrder_shownPaths (c : Component) : InTreeOrder c.shownPaths where
  descends := (Item.component c).pairwise_paths.filter _
  siblings := (Item.component c).pairwise_paths_siblings.filter _
  owned path n hmem := by
    rw [shownPaths, List.mem_filter, Item.mem_paths_iff] at hmem ⊢
    obtain ⟨⟨child, hchild⟩, -⟩ := hmem
    rw [Item.nodeAt?_append] at hchild
    obtain ⟨owner, howner, hlast⟩ := Option.bind_eq_some_iff.1 hchild
    refine ⟨⟨owner, howner⟩, ?_⟩
    -- References and values own nothing.
    rw [howner, Option.any_some]
    cases owner <;> first | rfl | simp [Item.nodeAt?, Item.children] at hlast

/-! ### Printed lines -/

/-- The names, tags, values and texts of a node. -/
def Item.texts : Item → List String
  | component c => [c.name, c.vlnv.vendor, c.vlnv.library, c.vlnv.name, c.vlnv.version]
  | parameter p => [p.name, p.key]
  | resetType t => [t.name]
  | extension e => e.tag :: e.text.toList
  | memoryMap m => [m.name]
  | block b => [b.name]
  | register r => [r.name]
  | field f => [f.name]
  | reset r => r.domain.toList
  | enumValue e => [e.name]
  | reference r => [r.text]
  | value v => [v.text]

/-- No name, tag, value or text of the component holds a line feed. -/
def Component.Unbroken (c : Component) : Prop :=
  ∀ i ∈ c.items, ∀ text ∈ i.texts, '\n' ∉ text.toList

instance (c : Component) : Decidable c.Unbroken :=
  inferInstanceAs (Decidable (∀ i ∈ c.items, ∀ text ∈ i.texts, '\n' ∉ text.toList))

theorem Item.mem_subtree_of_mem_children {i j k : Item} (hj : j ∈ i.subtree)
    (hk : k ∈ j.children) : k ∈ i.subtree := by
  obtain ⟨path, hpath⟩ := mem_subtree_iff.1 hj
  obtain ⟨n, hn⟩ := List.mem_iff_getElem?.1 hk
  refine mem_subtree_iff.2 ⟨path ++ [n], ?_⟩
  rw [nodeAt?_append, hpath, Option.bind_some, nodeAt?, hn]
  rfl

theorem Outline.notMem_extensionText {tag : String} {text : Option String}
    (htag : '\n' ∉ tag.toList) (htext : ∀ s ∈ text, '\n' ∉ s.toList) :
    '\n' ∉ (extensionText tag text).toList := by
  have htrim : '\n' ∉ (Text.trim (text.getD "")).toList := by
    intro hmem
    rw [Text.trim, String.toList_ofList] at hmem
    cases text with
    | none =>
      simp [Text.trimChars, Text.trimStartChars, Text.trimEndChars, Text.dropEndWhile] at hmem
    | some s => exact htext s rfl (Text.mem_of_mem_trimChars hmem)
  rw [extensionText]
  split <;> simp_all [toString]

namespace Component.Unbroken

variable {c : Component} {i : Item}

/-- A text that a node owns can stand in its line. -/
theorem notMem_referenceText (h : c.Unbroken) (hi : i ∈ c.items) {rs : List (Option Reference)}
    (hrs : Item.references rs ⊆ i.children) {r : Option Reference} (hr : r ∈ rs) :
    '\n' ∉ (Outline.referenceText r).toList := by
  cases r with
  | none => decide
  | some x =>
    have hmem : Item.reference x ∈ Item.references rs :=
      List.mem_map_of_mem (List.mem_filterMap.2 ⟨_, hr, rfl⟩)
    have hx : Item.reference x ∈ c.items :=
      Item.mem_subtree_of_mem_children (i := .component c) hi (hrs hmem)
    exact h _ hx x.text List.mem_cons_self

theorem notMem_outlineText (h : c.Unbroken) (hi : i ∈ c.items) {text : String}
    (ht : i.outlineText? = some text) : '\n' ∉ text.toList := by
  have hown := h i hi
  cases i with
  | reference => exact absurd ht (Option.some_ne_none text).symm
  | value => exact absurd ht (Option.some_ne_none text).symm
  | component =>
    obtain rfl := Option.some.inj ht
    simp only [Item.texts, List.forall_mem_cons] at hown
    simp [toString, hown]
  | parameter p =>
    obtain rfl := Option.some.inj ht
    have hvalue := h.notMem_referenceText hi (List.Subset.refl (Item.references [p.value]))
      List.mem_cons_self
    simp only [Item.texts, List.forall_mem_cons] at hown
    simp [toString, hown, hvalue]
  | resetType =>
    obtain rfl := Option.some.inj ht
    simp only [Item.texts, List.forall_mem_cons] at hown
    simp [toString, hown]
  | extension e =>
    obtain rfl := Option.some.inj ht
    exact Outline.notMem_extensionText (hown e.tag List.mem_cons_self) fun text htext =>
      hown text (List.mem_cons_of_mem _ (Option.mem_toList.2 htext))
  | memoryMap =>
    obtain rfl := Option.some.inj ht
    simp only [Item.texts, List.forall_mem_cons] at hown
    simp [toString, hown]
  | block b =>
    obtain rfl := Option.some.inj ht
    have href : ∀ x ∈ b.references, '\n' ∉ (Outline.referenceText x).toList := fun x =>
      h.notMem_referenceText hi (List.subset_append_left _ _)
    simp only [AddressBlock.references, List.forall_mem_cons] at href
    simp only [Item.texts, List.forall_mem_cons] at hown
    simp [toString, hown, href]
  | register r =>
    obtain rfl := Option.some.inj ht
    have href : ∀ x ∈ r.references, '\n' ∉ (Outline.referenceText x).toList := fun x =>
      h.notMem_referenceText hi (List.subset_append_left _ _)
    simp only [Register.references, List.forall_mem_cons] at href
    simp only [Item.texts, List.forall_mem_cons] at hown
    simp [toString, hown, href]
  | field f =>
    obtain rfl := Option.some.inj ht
    have href : ∀ x ∈ f.references, '\n' ∉ (Outline.referenceText x).toList := fun x =>
      h.notMem_referenceText hi fun j hj => by simp [Item.children, hj]
    have haccess : '\n' ∉ ((Keyword.keyword? f.access).getD "-").toList := by
      cases f.access <;> decide
    simp only [BitField.references, List.forall_mem_cons] at href
    simp only [Item.texts, List.forall_mem_cons] at hown
    simp [toString, hown, href, haccess]
  | reset r =>
    obtain rfl := Option.some.inj ht
    have hvalue := h.notMem_referenceText hi
      (List.Subset.refl (Item.references [r.value, r.mask])) List.mem_cons_self
    have hdomain : '\n' ∉ (r.domain.getD "-").toList := by
      cases hr : r.domain with
      | none => decide
      | some name => exact hown name (by simp [Item.texts, hr])
    simp [toString, hvalue, hdomain]
  | enumValue e =>
    obtain rfl := Option.some.inj ht
    have hvalue : '\n' ∉ ((e.value.map (·.text)).getD "?").toList := by
      cases he : e.value with
      | none => decide
      | some v =>
        have hv : Item.value v ∈ c.items :=
          Item.mem_subtree_of_mem_children (i := .component c) hi (by simp [Item.children, he])
        exact h _ hv v.text List.mem_cons_self
    simp only [Item.texts, List.forall_mem_cons] at hown
    simp [toString, hown, hvalue]

end Component.Unbroken

theorem Item.head?_outlineText {i : Item} {text : String} (h : i.outlineText? = some text) :
    text.toList.head? ≠ some ' ' := by
  cases i with
  | reference => exact absurd h (Option.some_ne_none text).symm
  | value => exact absurd h (Option.some_ne_none text).symm
  | extension =>
    obtain rfl := Option.some.inj h
    rw [Outline.extensionText]
    split <;> simp [toString]
  | _ =>
    obtain rfl := Option.some.inj h
    simp [toString]

/-- The line of an outline without the line feed at its end. -/
def OutlineLine.chars (l : OutlineLine) : List Char :=
  List.replicate (2 * l.depth) ' ' ++ l.text.toList

theorem Component.toList_outline (c : Component) :
    c.outline.toList = ((Outline.component c).map OutlineLine.chars).flatMap (· ++ ['\n']) := by
  rw [outline]
  induction Outline.component c with
  | nil => rfl
  | cons l ls ih => simp_all [OutlineLine.render, OutlineLine.chars]

/-- The number of blanks that a line begins with. -/
def indentation (line : List Char) : Nat := (line.takeWhile (· == ' ')).length

theorem indentation_append {cs : List Char} (h : cs.head? ≠ some ' ') (n : Nat) :
    indentation (List.replicate n ' ' ++ cs) = n := by
  have hcs : cs.takeWhile (· == ' ') = [] := by
    cases cs with
    | nil => rfl
    | cons c cs => exact List.takeWhile_cons_of_neg (by simpa using h)
  have hblanks : ∀ c ∈ List.replicate n ' ', c == ' ' := fun c hc => by
    simpa using List.eq_of_mem_replicate hc
  rw [indentation, List.takeWhile_append_of_pos hblanks, hcs, List.append_nil,
    List.length_replicate]

/-- The line shows the node at the end of the path, behind two blanks for each of its owners. -/
def Component.ShowsAt (c : Component) (path : List Nat) (line : List Char) : Prop :=
  ∃ i text, (Item.component c).nodeAt? path = some i ∧ i.outlineText? = some text ∧
    line = List.replicate (2 * path.length) ' ' ++ text.toList

theorem Component.ShowsAt.indentation_eq {c : Component} {path : List Nat} {line : List Char}
    (h : c.ShowsAt path line) : indentation line = 2 * path.length := by
  obtain ⟨i, text, -, htext, rfl⟩ := h
  exact indentation_append (Item.head?_outlineText htext) _

theorem Component.forall₂_showsAt (c : Component) :
    List.Forall₂ c.ShowsAt c.shownPaths ((Outline.component c).map OutlineLine.chars) := by
  refine List.forall₂_map_right_iff.2 (c.forall₂_outline.imp fun path line h => ?_)
  obtain ⟨i, text, hi, htext, rfl⟩ := h
  exact ⟨i, text, hi, htext, rfl⟩

theorem Component.Unbroken.splitChars_outline {c : Component} (h : c.Unbroken) :
    Text.splitChars (· == '\n') c.outline.toList =
      (Outline.component c).map OutlineLine.chars ++ [[]] := by
  rw [c.toList_outline]
  refine Text.splitChars_flatMap_concat rfl fun line hline d hd => beq_false_of_ne ?_
  rintro rfl
  obtain ⟨hlength, hshows⟩ := List.forall₂_iff_get.1 c.forall₂_showsAt
  obtain ⟨k, hk, rfl⟩ := List.mem_iff_getElem.1 hline
  obtain ⟨i, text, hi, htext, heq⟩ := hshows k (hlength ▸ hk) hk
  rw [List.get_eq_getElem] at heq
  rw [heq, List.mem_append] at hd
  rcases hd with hblank | hd
  · exact absurd (List.eq_of_mem_replicate hblank) (by decide)
  · exact h.notMem_outlineText (Item.mem_subtree_iff.2 ⟨_, hi⟩) htext hd

/-- The lines are the outline of the component. -/
structure Component.OutlinedBy (c : Component) (lines : List (List Char)) : Prop where
  /-- The shown nodes are those that are no references and no values, in the order of all nodes. -/
  nodes : c.shownPaths.map (Item.component c).nodeAt? = (c.items.filter Item.isShown).map some
  /-- Each of them has one line, in this order. -/
  shown : List.Forall₂ c.ShowsAt c.shownPaths lines
  indented : lines.map indentation = c.shownPaths.map fun path => 2 * path.length
  /-- The last line before the line of a node that is indented by two blanks less is the line of its
  owner, and the root has no such line. -/
  owners : ∀ k path, c.shownPaths[k]? = some path →
    (ownerLine? (lines.map indentation) k).bind (c.shownPaths[·]?) = ownerPath? path

/-- A component with one map of two registers and an extension inside an extension. -/
def Component.outlined : Component where
  name := "CAN_FD"
  vlnv := { vendor := "ctu", library := "can", name := "CAN_FD", version := "2.1" }
  memoryMaps := [{
    name := "Registers"
    blocks := [{
      name := "Control"
      baseAddress := some (.ofText "0x0")
      registers := [
        { name := "MODE"
          offset := some (.ofText "0x0")
          size := some (.ofText "32")
          fields := [{
            name := "RST"
            offset := some (.ofText "0")
            width := some (.ofText "1")
            access := .readWrite }] },
        { name := "STATUS" }] }] }]
  extensions := [{ tag := "group", children := [{ tag := "note", text := some " core " }] }]

/-- The lines of its outline. -/
def Component.outlinedLines : List (List Char) :=
  ["component CAN_FD (ctu/can/CAN_FD/2.1)",
   "  memory map Registers",
   "    address block Control @ 0x0",
   "      register MODE @ 0x0, 32 bits",
   "        field RST [0 +1] read-write",
   "      register STATUS @ ?, ? bits",
   "  extension group",
   "    extension note = core"].map String.toList

end RegAtlas
