/-!
# Grouping by access word

Items with byte offsets are taken in ascending order and cut into groups that share an access word.
A group is open up to the end of its window: `wordBytes` bytes from the offset of the item that
opened it, rounded down to a multiple of four. The first window begins at zero.
-/

namespace RegAtlas.WordGroup

/-- The largest offset. -/
def maxOffset : Nat := 0xFFFFFFFFFFFFFFFF

/-- The end of the window that begins at `low`. -/
def windowEnd (wordBytes low : Nat) : Nat := min (low + wordBytes) maxOffset

/-- The beginning of the window of an item that opens a group. -/
def windowStart (offset : Nat) : Nat := offset - offset % 4

/-- Cuts an ascending list. `group` is the one being filled, backwards. -/
def cutFrom {α : Type} (wordBytes low : Nat) (group : List α) : List (Nat × α) → List (List α)
  | [] => if group.isEmpty then [] else [group.reverse]
  | (offset, item) :: rest =>
    if windowEnd wordBytes low ≤ offset then
      let rest' := cutFrom wordBytes (windowStart offset) [item] rest
      if group.isEmpty then rest' else group.reverse :: rest'
    else cutFrom wordBytes low (item :: group) rest

/-- Items in ascending order of offset; equal offsets keep their order. -/
def sortByOffset {α : Type} (items : List (Nat × α)) : List (Nat × α) :=
  items.mergeSort fun a b => a.1 ≤ b.1

/-- Groups of items by access word. A word of no bytes counts as one byte. -/
def group {α : Type} (wordBytes : Nat) (items : List (Nat × α)) : List (List α) :=
  cutFrom (max wordBytes 1) 0 [] (sortByOffset items)

end RegAtlas.WordGroup
