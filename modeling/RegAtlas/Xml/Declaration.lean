import RegAtlas.Text.Basic
import RegAtlas.Xml.Name
import RegAtlas.Xml.Value

/-!
# The declaration of a document

The declaration names the version of XML, then perhaps the encoding of the document, then perhaps
whether it stands alone. It is read with the machine of names and values, one field after the other.
-/

namespace RegAtlas.Xml

/-- How the bytes of a document stand for characters. -/
inductive Encoding where
  | utf8
  | latin1
  | ascii
  deriving DecidableEq, Inhabited, Repr

/-- Whether two names of encodings agree as far as the shorter one goes, in any case. -/
def agree (label name : String) : Bool :=
  (label.toList.zip name.toList).all fun (l, n) => l == n.toLower

/-- The encoding with a name. The names that stand for UTF-16 are in front of the last ones, and no
document here is in that encoding. -/
def Encoding.ofName? (name : String) : Option Encoding :=
  let named := fun (labels : List String) => labels.any (agree · name)
  if named ["utf-8", "utf8"] then some .utf8
  else if named ["iso-8859-1", "latin1"] then some .latin1
  else if named ["utf-16", "utf16"] then none
  else if named ["ascii", "us-ascii"] then some .ascii
  else none

/-- What the declaration of a document says. -/
structure Declaration where
  version : Version := .v10
  encoding : Option Encoding := none
  deriving Repr

/-- A field of a declaration. -/
inductive Field where
  | version
  | encoding
  | standalone
  deriving DecidableEq, Repr

namespace Field

/-- The name of a field without its first letter. -/
def tail : Field → String
  | version => "ersion"
  | encoding => "ncoding"
  | standalone => "tandalone"

/-- The field that a first letter announces where another field may stand at the earliest. -/
def ofLetter? : Field → Char → Option Field
  | version, 'v' => some version
  | encoding, 'e' => some encoding
  | encoding, 's' | standalone, 's' => some standalone
  | _, _ => none

/-- What may stand behind a field at the earliest. -/
def next? : Field → Option Field
  | version => some encoding
  | encoding => some standalone
  | standalone => none

end Field

/-- Where the machine is in a declaration. -/
inductive DeclarationMode where
  /-- Behind white space, in front of a field. -/
  | before (field : Field)
  /-- In the name of a field, behind its first letter. -/
  | name (field : Field) (run : NameRun)
  | behindName (field : Field)
  | value (field : Field) (mode : ValueMode)
  | behindValue (field : Field)
  deriving Repr

/-- What a token leads to in a declaration. -/
inductive DeclarationStep where
  | more (mode : DeclarationMode) (d : Declaration)
  | done (d : Declaration)
  deriving Repr

namespace Declaration

/-- Sets a field. -/
def set? (d : Declaration) (field : Field) (value : String) : Option Declaration :=
  match field with
  | .version =>
    if value = "1.0" then some { d with version := .v10 }
    else if value = "1.1" then some { d with version := .v11 }
    else none
  | .encoding => (Encoding.ofName? value).map fun encoding => { d with encoding := some encoding }
  | .standalone => if value = "yes" || value = "no" then some d else none

/-- Takes a token. The first letter of a field is read apart, so a prefix may stand between it and
the rest. -/
def step? (d : Declaration) (mode : DeclarationMode) (t : Token) : Option DeclarationStep := do
  match mode with
  | .before field =>
    match t with
    | .char c =>
      if isSpace c then return .more mode d
      else return .more (.name (← field.ofLetter? c) {}) d
    | .instructionEnd => if field = .version then none else return .done d
    | _ => none
  | .name field run =>
    match ← run.step? [.equals] t with
    | .more run => return .more (.name field run) d
    | .done name =>
      if name.name ≠ field.tail then none
      else return .more (if t = .equals then .value field .before else .behindName field) d
  | .behindName field =>
    match t with
    | .equals => return .more (.value field .before) d
    | .char c => if isSpace c then return .more mode d else none
    | _ => none
  | .value field mode =>
    match ← mode.step? d.version [] t with
    | .more mode => return .more (.value field mode) d
    | .done value => return .more (.behindValue field) (← d.set? field (String.ofList value))
  | .behindValue field =>
    match t with
    | .char c =>
      if isSpace c then
        return .more ((field.next?.map .before).getD mode) d
      else none
    | .instructionEnd => return .done d
    | _ => none

end Declaration

end RegAtlas.Xml
