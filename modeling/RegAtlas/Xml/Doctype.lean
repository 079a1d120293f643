import RegAtlas.Xml.Reference

/-!
# Document types

A machine that takes the tokens of a document type one by one and notes the entities that it
declares. Other declarations are passed over, and so are instructions, whose tokens count like any
others.
-/

namespace RegAtlas.Xml

/-- Where the machine is in a document type. Texts are held backwards. -/
inductive DoctypeMode where
  /-- Between declarations. -/
  | outside
  | quoted (mark : Char)
  | comment
  /-- In the keyword of a declaration. -/
  | keyword (text : List Char)
  /-- Before the name of an entity; a percent sign makes it a parameter entity. -/
  | beforeName (percent : Bool)
  | name (text : List Char)
  | beforeValue (name : String)
  | value (name : String) (mark : Char) (text : List Char)
  /-- Behind an ampersand in a value. -/
  | valueAmpersand (name : String) (mark : Char) (text : List Char)
  /-- In the number of a character in a value. -/
  | valueNumber (name : String) (mark : Char) (text digits : List Char)
  /-- In the name of a parameter entity in a value. -/
  | valueParameter (name : String) (mark : Char) (text parameter : List Char)
  /-- In the name of a parameter entity between declarations. -/
  | parameter (text : List Char)
  /-- In a declaration that is passed over. -/
  | passing
  deriving Repr

/-- What a token leads to. -/
inductive DoctypeStep where
  | next (mode : DoctypeMode) (entities : Entities)
  /-- Text is to be read before the rest. -/
  | expand (text : List Char) (entities : Entities)
  /-- The document type is at its end. -/
  | done (entities : Entities)
  deriving Repr

/-- Notes an entity. -/
def declareEntity (name : String) (text : List Char) (entities : Entities) : Entities :=
  entities ++ [(name, text)]

/-- The mode behind the keyword of a declaration. -/
def declarationMode? (keyword : String) : Option DoctypeMode :=
  if keyword = "ENTITY" then some (.beforeName false)
  else if ["NOTATION", "ELEMENT", "ATTLIST"].contains keyword then some .passing
  else none

/-- The plain character of a token, which includes the marks of references. -/
def plain? : Token → Option Char
  | .char c => some c
  | .semicolon => some ';'
  | .ampersand => some '&'
  | _ => none

/-- Takes a character of a declaration in front of the value of an entity. -/
def DoctypeMode.front? (mode : DoctypeMode) (c : Char) : Option DoctypeMode :=
  match mode with
  | .keyword text =>
    if isSpace c then declarationMode? (String.ofList text.reverse)
    else if c.isUpper then some (.keyword (c :: text))
    else none
  | .beforeName percent =>
    if isSpace c then some mode
    else if c == '%' && !percent then some (.beforeName true)
    else if isNameStart c then some (.name (c :: if percent then ['%'] else []))
    else none
  | .name text =>
    if isSpace c then some (.beforeValue (String.ofList text.reverse))
    else if isNameChar c then some (.name (c :: text))
    else none
  | _ => none

/-- Takes a character of the value of an entity. -/
def DoctypeMode.inner? (v : Version) (entities : Entities) (mode : DoctypeMode) (c : Char) :
    Option DoctypeMode :=
  match mode with
  | .value entity q text =>
    if c == '&' then some (.valueAmpersand entity q text)
    else if c == '%' then some (.valueParameter entity q text ['%'])
    else if isChar v c then some (.value entity q (c :: text))
    else none
  | .valueAmpersand entity q text =>
    if c == '#' then some (.valueNumber entity q text [])
    else if isChar v c then some (.value entity q (c :: '&' :: text))
    else none
  | .valueNumber entity q text digits =>
    if c == ';' then (numberedChar? v digits.reverse).map fun d => .value entity q (d :: text)
    else if isChar v c then some (.valueNumber entity q text (c :: digits))
    else none
  | .valueParameter entity q text inner =>
    if c == ';' then
      (entities.lookup (String.ofList inner.reverse)).map fun inner =>
        .value entity q (inner.reverse ++ text)
    else if isNameChar c then some (.valueParameter entity q text (c :: inner))
    else none
  | _ => none

/-- Takes a token of a document type. -/
def DoctypeMode.step? (v : Version) (entities : Entities) (mode : DoctypeMode) (t : Token) :
    Option DoctypeStep :=
  let goto (mode : DoctypeMode) : Option DoctypeStep := some (.next mode entities)
  match mode with
  | .outside =>
    match t with
    | .tagEnd => some (.done entities)
    | .declarationStart => goto (.keyword [])
    | .char '%' => goto (.parameter ['%'])
    | .commentStart => goto .comment
    | .quote mark => goto (.quoted mark)
    | .cdataStart | .cdataEnd => none
    | _ => goto .outside
  | .quoted mark => goto (if t = .quote mark then .outside else mode)
  | .comment => goto (if t = .commentEnd then .outside else mode)
  | .passing => goto (if t = .tagEnd then .outside else mode)
  | .keyword _ | .beforeName _ | .name _ =>
    match t with
    | .char c => (mode.front? c).bind goto
    | _ => none
  | .beforeValue entity =>
    match t with
    | .char c =>
      if isSpace c then goto mode
      else if c == 'S' || c == 'P' then
        some (.next .passing (declareEntity entity [] entities))
      else none
    | .quote mark => goto (.value entity mark [])
    | _ => none
  | .value entity mark text =>
    match t with
    | .quote q =>
      if q = mark then some (.next .passing (declareEntity entity text.reverse entities))
      else goto (.value entity mark (q :: text))
    | .semicolon => none
    | t => (plain? t).bind fun c => (mode.inner? v entities c).bind goto
  | .valueAmpersand .. =>
    match t with
    | .char c => (mode.inner? v entities c).bind goto
    | _ => none
  | .valueNumber .. | .valueParameter .. =>
    match t with
    | .ampersand => none
    | t => (plain? t).bind fun c => (mode.inner? v entities c).bind goto
  | .parameter text =>
    match t with
    | .semicolon => (entities.lookup (String.ofList text.reverse)).map (.expand · entities)
    | .char c =>
      if c == ';' then (entities.lookup (String.ofList text.reverse)).map (.expand · entities)
      else if isNameChar c then goto (.parameter (c :: text))
      else none
    | _ => none

end RegAtlas.Xml
