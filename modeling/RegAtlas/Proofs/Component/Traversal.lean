import RegAtlas.Component.Rewriter
import RegAtlas.Proofs.Component.Path

/-!
# The two traversals

The nodes of a component are noted by a rewriter that changes nothing, or listed by themselves. A
rewriter that gives back the nodes that it acts on meets the nodes of the list, in the order of the
list, and leaves the tree as it is. The list holds every node once, each before the nodes below it,
and siblings in their order.
-/

namespace RegAtlas

/-! ### Nodes with what is seen at them -/

namespace Item

section

variable {ρ : Type} (inside : ρ → Item → ρ)

/-- A node and all nodes below it, in order, each with what is seen at it. -/
def subtreeIn (seen : ρ) (i : Item) : List (ρ × Item) :=
  (seen, i) :: i.children.attach.flatMap fun j => subtreeIn (inside seen i) j.1
termination_by i.subtree.length
decreasing_by exact length_subtree_lt j.2

theorem subtreeIn_eq (seen : ρ) (i : Item) : i.subtreeIn inside seen =
    (seen, i) :: i.children.flatMap (subtreeIn inside (inside seen i)) := by
  rw [subtreeIn]
  congr 1
  calc i.children.attach.flatMap (fun j => subtreeIn inside (inside seen i) j.1)
      = (i.children.attach.map Subtype.val).flatMap (subtreeIn inside (inside seen i)) := by
        rw [List.flatMap_map]
    _ = i.children.flatMap (subtreeIn inside (inside seen i)) := by
        rw [List.attach_map_subtype_val]

theorem map_snd_subtreeIn (seen : ρ) (i : Item) :
    (i.subtreeIn inside seen).map Prod.snd = i.subtree := by
  induction i using induction generalizing seen with
  | step i ih =>
    rw [subtreeIn_eq, subtree_eq, List.map_cons, List.map_flatMap]
    exact congrArg (i :: ·) (List.flatMap_congr fun j hj => ih j hj _)

@[simp] theorem subtreeIn_reference (seen : ρ) (r : Reference) :
    (reference r).subtreeIn inside seen = [(seen, reference r)] := by
  rw [subtreeIn_eq, children, List.flatMap_nil]

@[simp] theorem subtreeIn_value (seen : ρ) (v : Value) :
    (value v).subtreeIn inside seen = [(seen, value v)] := by
  rw [subtreeIn_eq, children, List.flatMap_nil]

end

end Item

/-! ### Rewriters that change nothing -/

section

variable {ρ : Type} {m : Type → Type} [Monad m] {α : Type}

/-- The action gives back what it acts on, whatever else it does. -/
def GivesBack (act : ρ → α → m α) : Prop :=
  ∀ seen a, act seen a = do let _ ← act seen a; return a

namespace Rewriter

/-- No action of the rewriter changes a node. -/
structure Observes (w : Rewriter ρ m) : Prop where
  component : GivesBack w.component
  parameter : GivesBack w.parameter
  resetType : GivesBack w.resetType
  extension : GivesBack w.extension
  memoryMap : GivesBack w.memoryMap
  block : GivesBack w.block
  register : GivesBack w.register
  field : GivesBack w.field
  reset : GivesBack w.reset
  enumValue : GivesBack w.enumValue
  reference : GivesBack w.reference
  value : GivesBack w.value

/-- What the rewriter does at a node, apart from the node that it gives. -/
def visit (w : Rewriter ρ m) : ρ × Item → m PUnit
  | (seen, .component c) => do let _ ← w.component seen c
  | (seen, .parameter p) => do let _ ← w.parameter seen p
  | (seen, .resetType t) => do let _ ← w.resetType seen t
  | (seen, .extension e) => do let _ ← w.extension seen e
  | (seen, .memoryMap map) => do let _ ← w.memoryMap seen map
  | (seen, .block b) => do let _ ← w.block seen b
  | (seen, .register r) => do let _ ← w.register seen r
  | (seen, .field f) => do let _ ← w.field seen f
  | (seen, .reset r) => do let _ ← w.reset seen r
  | (seen, .enumValue e) => do let _ ← w.enumValue seen e
  | (seen, .reference r) => do let _ ← w.reference seen r
  | (seen, .value v) => do let _ ← w.value seen v

/-- The rewriter meets a node and those below it in order and gives the node back. -/
def Meets (w : Rewriter ρ m) (item : α → Item) (on : ρ → α → m α) : Prop :=
  ∀ seen a, on seen a = do ((item a).subtreeIn w.inside seen).forM w.visit; return a

variable [LawfulMonad m] {w : Rewriter ρ m} {item : α → Item} {on : ρ → α → m α}

theorem meets_leaf {act : ρ → α → m α} (h : GivesBack act)
    (hvisit : ∀ seen a, w.visit (seen, item a) = do let _ ← act seen a)
    (hchildren : ∀ a, (item a).children = []) : w.Meets item act := by
  intro seen a
  rw [h seen a, Item.subtreeIn_eq, hchildren]
  simp [hvisit]

theorem Meets.optional (h : w.Meets item on) (seen : ρ) (o : Option α) :
    Rewriter.optional (on seen) o = do
      (o.toList.flatMap fun a => (item a).subtreeIn w.inside seen).forM w.visit
      return o := by
  cases o with
  | none => simp [Rewriter.optional]
  | some a => simp [Rewriter.optional, h seen a]

theorem Meets.mapM (h : w.Meets item on) (seen : ρ) (as : List α) : as.mapM (on seen) = do
    (as.flatMap fun a => (item a).subtreeIn w.inside seen).forM w.visit
    return as := by
  induction as with
  | nil => simp
  | cons a as ih => simp [h seen a, ih]

/-! ### The nodes of each kind -/

mutual

theorem meets_extension (h : w.Observes) : ∀ (seen : ρ) (e : VendorExtension),
    w.onExtension seen e = do ((Item.extension e).subtreeIn w.inside seen).forM w.visit; return e
  | seen, ⟨node, tag, text, attributes, children⟩ => by
    rw [onExtension, h.extension, Item.subtreeIn_eq, Item.children, List.flatMap_map]
    simp [meets_extensions h _ children, visit]

theorem meets_extensions (h : w.Observes) : ∀ (seen : ρ) (es : List VendorExtension),
    w.onExtensions seen es = do
      (es.flatMap fun e => (Item.extension e).subtreeIn w.inside seen).forM w.visit
      return es
  | _, [] => by simp [onExtensions]
  | seen, e :: es => by
    rw [onExtensions, List.flatMap_cons]
    simp [meets_extension h seen e, meets_extensions h seen es]

end

section

variable (h : w.Observes)
include h

theorem meets_reference : w.Meets Item.reference w.reference :=
  meets_leaf h.reference (fun _ _ => rfl) fun _ => rfl

theorem meets_value : w.Meets Item.value w.value :=
  meets_leaf h.value (fun _ _ => rfl) fun _ => rfl

theorem meets_resetType : w.Meets Item.resetType w.resetType :=
  meets_leaf h.resetType (fun _ _ => rfl) fun _ => rfl

theorem meets_parameter : w.Meets Item.parameter w.onParameter := by
  intro seen p
  rw [onParameter, h.parameter seen p, Item.subtreeIn_eq]
  simp [(meets_reference h).optional, Item.children, visit, Item.references_cons,
    Item.references_nil, List.flatMap_assoc]

theorem meets_reset : w.Meets Item.reset w.onReset := by
  intro seen r
  rw [onReset, h.reset seen r, Item.subtreeIn_eq]
  simp [(meets_reference h).optional, Item.children, visit, Item.references_cons,
    Item.references_nil, List.flatMap_assoc]

theorem meets_enumValue : w.Meets Item.enumValue w.onEnumValue := by
  intro seen e
  rw [onEnumValue, h.enumValue seen e, Item.subtreeIn_eq]
  simp [(meets_value h).optional, Item.children, visit, List.flatMap_map]

theorem meets_field : w.Meets Item.field w.onField := by
  intro seen f
  rw [onField, h.field seen f, Item.subtreeIn_eq]
  simp [(meets_value h).optional, (meets_reference h).optional, (meets_reset h).mapM,
    (meets_enumValue h).mapM, Item.children, BitField.references, visit, Item.references_cons,
    Item.references_nil, List.flatMap_assoc, List.flatMap_map]

theorem meets_register : w.Meets Item.register w.onRegister := by
  intro seen r
  rw [onRegister, h.register seen r, Item.subtreeIn_eq]
  simp [(meets_reference h).optional, (meets_field h).mapM, Item.children, Register.references,
    visit, Item.references_cons, Item.references_nil, List.flatMap_assoc, List.flatMap_map]

theorem meets_block : w.Meets Item.block w.onBlock := by
  intro seen b
  rw [onBlock, h.block seen b, Item.subtreeIn_eq]
  simp [(meets_reference h).optional, (meets_register h).mapM, Item.children,
    AddressBlock.references, visit, Item.references_cons, Item.references_nil, List.flatMap_assoc,
    List.flatMap_map]

theorem meets_memoryMap : w.Meets Item.memoryMap w.onMemoryMap := by
  intro seen map
  rw [onMemoryMap, h.memoryMap seen map, Item.subtreeIn_eq]
  simp [(meets_reference h).optional, (meets_block h).mapM, Item.children, visit,
    Item.references_cons, Item.references_nil, List.flatMap_assoc, List.flatMap_map]

theorem meets_component : w.Meets Item.component w.onComponent := by
  intro seen c
  rw [onComponent, h.component seen c, Item.subtreeIn_eq]
  simp [(meets_parameter h).mapM, (meets_resetType h).mapM, (meets_memoryMap h).mapM,
    meets_extensions h, Item.children, visit, List.flatMap_map]

end

end Rewriter

end

/-! ### Noted nodes -/

section

variable {ρ : Type} (inside : ρ → Item → ρ) (seen : ρ)

namespace Rewriter

theorem noting_observes : (noting inside).Observes := by
  constructor <;> exact fun _ _ => rfl

theorem visit_noting (x : ρ × Item) (met : List (ρ × Item)) :
    (noting inside).visit x met = (⟨⟩, met ++ [x]) := by
  obtain ⟨seen, i⟩ := x
  cases i <;> rfl

theorem forM_visit_noting (xs met : List (ρ × Item)) :
    xs.forM (noting inside).visit met = (⟨⟩, met ++ xs) := by
  induction xs generalizing met with
  | nil => rw [List.append_nil]; rfl
  | cons x xs ih =>
    calc (x :: xs).forM (noting inside).visit met
        = xs.forM (noting inside).visit ((noting inside).visit x met).2 := rfl
      _ = (⟨⟩, met ++ x :: xs) := by rw [visit_noting, ih, List.append_assoc]; rfl

/-- Noting gives a node back and the nodes at and below it. -/
theorem on_noting {α : Type} {item : α → Item} {on : ρ → α → StateM (List (ρ × Item)) α}
    (h : (noting inside).Meets item on) (a : α) :
    on seen a [] = (a, (item a).subtreeIn inside seen) := by
  rw [h seen a]
  exact congrArg (fun result => (a, result.2)) (forM_visit_noting inside _ [])

end Rewriter

theorem MemoryMap.itemsIn_eq (m : MemoryMap) :
    m.itemsIn inside seen = (Item.memoryMap m).subtreeIn inside seen :=
  congrArg Prod.snd (Rewriter.on_noting inside seen
    (Rewriter.meets_memoryMap (Rewriter.noting_observes inside)) m)

theorem Component.noting_eq (c : Component) : (Rewriter.noting inside).onComponent seen c [] =
    (c, (Item.component c).subtreeIn inside seen) :=
  Rewriter.on_noting inside seen (Rewriter.meets_component (Rewriter.noting_observes inside)) c

theorem Component.itemsIn_eq (c : Component) :
    c.itemsIn inside seen = (Item.component c).subtreeIn inside seen :=
  congrArg Prod.snd (c.noting_eq inside seen)

end

/-! ### The order of the list -/

namespace Item

/-- The paths of a list lead to all nodes, each once, to a node before the nodes below it, and to
the nodes at and below a child before those at and below a later child of the same node. -/
structure TreeOrder (i : Item) (paths : List (List Nat)) : Prop where
  distinct : paths.Nodup
  complete : ∀ path, path ∈ paths ↔ ∃ j, i.nodeAt? path = some j
  descends : paths.Pairwise fun path path' => ¬ path' <+: path
  siblings : paths.Pairwise fun path path' =>
    ∀ start k k', start ++ [k] <+: path → start ++ [k'] <+: path' → k ≤ k'

theorem treeOrder_paths (i : Item) : i.TreeOrder i.paths where
  distinct := i.pairwise_paths.imp fun {path path'} hbefore heq => by
    subst heq
    exact hbefore (List.prefix_refl path)
  complete _ := mem_paths_iff
  descends := i.pairwise_paths
  siblings := i.pairwise_paths_siblings

end Item

/-! ### Agreement -/

/-- The two traversals agree. A rewriter that notes the nodes it meets notes the list of the nodes,
whatever is seen at them, and gives the same tree. Every rewriter that gives nodes back acts on the
nodes of the list in turn and on nothing else, and gives the same tree. The list holds all nodes of
the tree, each at one place, a node before those below it and siblings in order. -/
theorem Component.traversals_agree (c : Component) :
    (∀ (ρ : Type) (inside : ρ → Item → ρ) (seen : ρ),
      (Rewriter.noting inside).onComponent seen c [] = (c, c.itemsIn inside seen) ∧
      (c.itemsIn inside seen).map Prod.snd = c.items) ∧
    (∀ (ρ : Type) (m : Type → Type) [Monad m] [LawfulMonad m] (w : Rewriter ρ m) (seen : ρ),
      w.Observes →
        w.onComponent seen c = do (c.itemsIn w.inside seen).forM w.visit; return c) ∧
    ∃ paths, (Item.component c).TreeOrder paths ∧
      paths.map (Item.component c).nodeAt? = c.items.map some := by
  refine ⟨fun ρ inside seen => ?_, fun ρ m _ _ w seen hw => ?_, _, Item.treeOrder_paths _,
    Item.map_nodeAt?_paths _⟩
  · rw [itemsIn_eq]
    exact ⟨c.noting_eq inside seen, Item.map_snd_subtreeIn inside seen (.component c)⟩
  · rw [itemsIn_eq]
    exact Rewriter.meets_component hw seen c

/-- A component with nodes of all kinds and extensions inside an extension. -/
def Component.layered : Component where
  parameters := [{ value := some (.ofText "4") }]
  resetTypes := [{}]
  memoryMaps := [{ blocks := [{ registers := [{ fields := [{
    fieldId := some { text := "1" }
    width := some (.ofText "2")
    resets := [{ mask := some (.ofText "3") }]
    enumValues := [{ value := some { text := "0" } }] }] }] }] }]
  extensions := [{ tag := "a", children := [{ tag := "b" }, { tag := "c" }] }]

/-- The nodes with the number of their owners. -/
theorem Component.traversals_agree_layered :
    (Rewriter.noting fun depth _ => depth + 1).Observes ∧
    (Rewriter.noting fun depth _ => depth + 1).onComponent 0 layered [] =
      ((do (layered.itemsIn (fun depth _ => depth + 1) 0).forM
            (Rewriter.noting fun depth _ => depth + 1).visit
           return layered) : StateM (List (Nat × Item)) _) [] ∧
    (layered.itemsIn (fun depth _ => depth + 1) 0).map (fun x => (x.1, x.2.kind)) =
      [(0, .component), (1, .parameter), (2, .reference), (1, .resetType), (1, .memoryMap),
        (2, .block), (3, .register), (4, .field), (5, .value), (5, .reference), (5, .reset),
        (6, .reference), (5, .enumValue), (6, .value), (1, .extension), (2, .extension),
        (2, .extension)] :=
  ⟨Rewriter.noting_observes _,
    congrFun (layered.traversals_agree.2.1 _ _ _ 0 (Rewriter.noting_observes _)) [], rfl⟩

end RegAtlas
