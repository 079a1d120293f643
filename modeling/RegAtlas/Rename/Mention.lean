import RegAtlas.Text.Basic

/-!
# Mentions of a name in a text

A mention is an occurrence of the name that follows white space and that ends the text or precedes
a blank, a full stop, a comma or an opening bracket: `MODE[3:0]` and `MODE.ENA` mention `MODE`, and
`TX_MODE` does not.
-/

namespace RegAtlas.Mention

/-- What may follow a mention. -/
def endsWord : Option Char → Bool
  | none => true
  | some c => c == ' ' || c == '.' || c == ',' || c == '[' || c == '(' || c == '\x7b'

/-- Replaces mentions in the rest of a text. `last` is the character before the rest. The second
component says whether there was a mention. -/
def replaceFrom (old new : List Char) (last : Option Char) : List Char → List Char × Bool
  | [] => ([], false)
  | c :: cs =>
    if old.isPrefixOf (c :: cs) then
      let rest := cs.drop (old.length - 1)
      let mention := last.any Text.isBlank && endsWord rest.head?
      let piece := if mention then new else old
      let (tail, found) := replaceFrom old new (piece.getLast?.or last) rest
      (piece ++ tail, mention || found)
    else
      let (tail, found) := replaceFrom old new (some c) cs
      (c :: tail, found)
termination_by cs => cs.length
decreasing_by all_goals simp; try omega

/-- The text with all mentions of a name replaced, if there are any. -/
def replace? (old new text : String) : Option String :=
  if old.isEmpty then none
  else
    let (out, found) := replaceFrom old.toList new.toList none text.toList
    if found then some (String.ofList out) else none

/-- Replaces one name after the other, if there is a mention of any. -/
def replaceAll? (pairs : List (String × String)) (text : String) : Option String :=
  pairs.foldl (fun done (old, new) => (replace? old new (done.getD text)).or done) none

end RegAtlas.Mention
