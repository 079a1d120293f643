import RegAtlas.Text.Basic

/-!
# Filling lines with words

Words are put on a line as long as they fit, one blank between them. A word that is too long for
the limit has a line of its own.
-/

namespace RegAtlas.Text

/-- Distributes items over lines. `line` is the line being filled and `used` its size. -/
def packFrom {α : Type} (size : α → Nat) (limit : Nat) (line : List α) (used : Nat) :
    List α → List (List α)
  | [] => [line]
  | item :: items =>
    if used + 1 + size item ≤ limit then
      packFrom size limit (line ++ [item]) (used + 1 + size item) items
    else line :: packFrom size limit [item] (size item) items

/-- Distributes items over lines of at most `limit`, with one unit between two items of a line. -/
def pack {α : Type} (size : α → Nat) (limit : Nat) : List α → List (List α)
  | [] => []
  | item :: items => packFrom size limit [item] (size item) items

/-- The lines of the words of a text. The limit counts bytes. -/
def wrap (limit : Nat) (text : String) : List String :=
  (pack String.utf8ByteSize limit (words text)).map (String.intercalate " ")

end RegAtlas.Text
