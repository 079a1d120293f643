import RegAtlas.Component.Item

/-!
# Rewriting the nodes of a component

A rewriter acts on every node of the tree, on a node before the nodes that the result owns. It meets
the nodes in the order of `Component.items`. An action on a vendor extension leaves its children to
the rewriter. What a rewriter sets at a node is seen by the actions on the nodes below it.
-/

namespace RegAtlas

/-- An action for each kind of node. -/
structure Rewriter (ρ : Type) (m : Type → Type) [Monad m] where
  /-- What is seen below a node, from what is seen at it. -/
  inside : ρ → Item → ρ := fun seen _ => seen
  component : ρ → Component → m Component := fun _ => pure
  parameter : ρ → Parameter → m Parameter := fun _ => pure
  resetType : ρ → ResetType → m ResetType := fun _ => pure
  extension : ρ → VendorExtension → m VendorExtension := fun _ => pure
  memoryMap : ρ → MemoryMap → m MemoryMap := fun _ => pure
  block : ρ → AddressBlock → m AddressBlock := fun _ => pure
  register : ρ → Register → m Register := fun _ => pure
  field : ρ → BitField → m BitField := fun _ => pure
  reset : ρ → Reset → m Reset := fun _ => pure
  enumValue : ρ → EnumValue → m EnumValue := fun _ => pure
  reference : ρ → Reference → m Reference := fun _ => pure
  value : ρ → Value → m Value := fun _ => pure

namespace Rewriter

variable {ρ : Type} {m : Type → Type} [Monad m] (w : Rewriter ρ m)

/-- Acts on an element that may be absent. -/
def optional {α : Type} (act : α → m α) : Option α → m (Option α)
  | none => pure none
  | some a => do return some (← act a)

def onParameter (seen : ρ) (p : Parameter) : m Parameter := do
  let p ← w.parameter seen p
  let below := w.inside seen (.parameter p)
  return { p with value := ← optional (w.reference below) p.value }

def onReset (seen : ρ) (r : Reset) : m Reset := do
  let r ← w.reset seen r
  let below := w.inside seen (.reset r)
  return { r with
    value := ← optional (w.reference below) r.value
    mask := ← optional (w.reference below) r.mask }

def onEnumValue (seen : ρ) (e : EnumValue) : m EnumValue := do
  let e ← w.enumValue seen e
  let below := w.inside seen (.enumValue e)
  return { e with value := ← optional (w.value below) e.value }

def onField (seen : ρ) (f : BitField) : m BitField := do
  let f ← w.field seen f
  let below := w.inside seen (.field f)
  return { f with
    fieldId := ← optional (w.value below) f.fieldId
    offset := ← optional (w.reference below) f.offset
    width := ← optional (w.reference below) f.width
    isPresent := ← optional (w.reference below) f.isPresent
    reserved := ← optional (w.reference below) f.reserved
    writeMinimum := ← optional (w.reference below) f.writeMinimum
    writeMaximum := ← optional (w.reference below) f.writeMaximum
    resets := ← f.resets.mapM (w.onReset below)
    enumValues := ← f.enumValues.mapM (w.onEnumValue below) }

def onRegister (seen : ρ) (r : Register) : m Register := do
  let r ← w.register seen r
  let below := w.inside seen (.register r)
  return { r with
    offset := ← optional (w.reference below) r.offset
    size := ← optional (w.reference below) r.size
    dimension := ← optional (w.reference below) r.dimension
    isPresent := ← optional (w.reference below) r.isPresent
    fields := ← r.fields.mapM (w.onField below) }

def onBlock (seen : ρ) (b : AddressBlock) : m AddressBlock := do
  let b ← w.block seen b
  let below := w.inside seen (.block b)
  return { b with
    baseAddress := ← optional (w.reference below) b.baseAddress
    range := ← optional (w.reference below) b.range
    width := ← optional (w.reference below) b.width
    isPresent := ← optional (w.reference below) b.isPresent
    registers := ← b.registers.mapM (w.onRegister below) }

def onMemoryMap (seen : ρ) (map : MemoryMap) : m MemoryMap := do
  let map ← w.memoryMap seen map
  let below := w.inside seen (.memoryMap map)
  return { map with
    isPresent := ← optional (w.reference below) map.isPresent
    blocks := ← map.blocks.mapM (w.onBlock below) }

mutual

def onExtension (seen : ρ) : VendorExtension → m VendorExtension
  | ⟨node, tag, text, attributes, children⟩ => do
    let e ← w.extension seen ⟨node, tag, text, attributes, children⟩
    return { e with children := ← onExtensions (w.inside seen (.extension e)) children }

def onExtensions (seen : ρ) : List VendorExtension → m (List VendorExtension)
  | [] => pure []
  | e :: es => do
    let e ← onExtension seen e
    return e :: (← onExtensions seen es)

end

def onComponent (seen : ρ) (c : Component) : m Component := do
  let c ← w.component seen c
  let below := w.inside seen (.component c)
  return { c with
    parameters := ← c.parameters.mapM (w.onParameter below)
    resetTypes := ← c.resetTypes.mapM (w.resetType below)
    memoryMaps := ← c.memoryMaps.mapM (w.onMemoryMap below)
    extensions := ← w.onExtensions below c.extensions }

/-! ### Reading the nodes -/

variable (inside : ρ → Item → ρ)

/-- Notes the nodes with what is seen at them, and changes nothing. -/
def noting : Rewriter ρ (StateM (List (ρ × Item))) where
  inside := inside
  component seen c := fun met => (c, met ++ [(seen, .component c)])
  parameter seen p := fun met => (p, met ++ [(seen, .parameter p)])
  resetType seen t := fun met => (t, met ++ [(seen, .resetType t)])
  extension seen e := fun met => (e, met ++ [(seen, .extension e)])
  memoryMap seen m := fun met => (m, met ++ [(seen, .memoryMap m)])
  block seen b := fun met => (b, met ++ [(seen, .block b)])
  register seen r := fun met => (r, met ++ [(seen, .register r)])
  field seen f := fun met => (f, met ++ [(seen, .field f)])
  reset seen r := fun met => (r, met ++ [(seen, .reset r)])
  enumValue seen e := fun met => (e, met ++ [(seen, .enumValue e)])
  reference seen r := fun met => (r, met ++ [(seen, .reference r)])
  value seen v := fun met => (v, met ++ [(seen, .value v)])

end Rewriter

section

variable {ρ : Type} (inside : ρ → Item → ρ) (seen : ρ)

/-- The nodes at and below a memory map in order, each with what is seen at it. -/
def MemoryMap.itemsIn (m : MemoryMap) : List (ρ × Item) :=
  ((Rewriter.noting inside).onMemoryMap seen m []).2

/-- All nodes of the component in order, each with what is seen at it. -/
def Component.itemsIn (c : Component) : List (ρ × Item) :=
  ((Rewriter.noting inside).onComponent seen c []).2

end

end RegAtlas
