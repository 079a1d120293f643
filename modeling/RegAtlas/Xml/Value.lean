import RegAtlas.Xml.Reference

/-!
# Values of attributes

A value stands between quotation marks. References in it are replaced, and the text of an entity is
not read again. Other marks than the beginning of a tag or of an instruction are plain text.
-/

namespace RegAtlas.Xml

/-- Where the machine is in a value. Texts are held backwards. -/
inductive ValueMode where
  /-- In front of the quotation mark. -/
  | before
  | inside (mark : Char) (text : List Char)
  | reference (mark : Char) (text name : List Char)
  deriving Inhabited, Repr

/-- What a token leads to in a value. -/
inductive ValueStep where
  | more (mode : ValueMode)
  | done (value : List Char)
  deriving Repr

/-- Takes a token of a value. -/
def ValueMode.step? (v : Version) (entities : Entities) (mode : ValueMode) (t : Token) :
    Option ValueStep :=
  match mode with
  | .before =>
    match t with
    | .char c => if isSpace c then some (.more .before) else none
    | .quote mark => some (.more (.inside mark []))
    | _ => none
  | .inside mark text =>
    match t with
    | .quote q =>
      some (if q = mark then .done text.reverse else .more (.inside mark (q :: text)))
    | .ampersand => some (.more (.reference mark text []))
    | .tagStart | .instructionStart => none
    | .char c => if isPlainChar v c then some (.more (.inside mark (c :: text))) else none
    | t => some (.more (.inside mark (t.text.reverse ++ text)))
  | .reference mark text name => (referenceStep? v entities name t).map fun
    | .more name => .more (.reference mark text name)
    | .done (.char c) => .more (.inside mark (c :: text))
    | .done (.entity inner) => .more (.inside mark (inner.reverse ++ text))

end RegAtlas.Xml
