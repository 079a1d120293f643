import RegAtlas.Document

/-!
# Documents in YAML

Lists and records are in block style. A text is written plain if it is a simple word or phrase, and
otherwise between double quotes.
-/

namespace RegAtlas.Document

/-- Plain text that would be read as something other than a text. -/
def yamlReserved : List String :=
  ["null", "true", "false", "yes", "no", "on", "off", "y", "n"]

def isYamlPlainChar (c : Char) : Bool := c.isAlphanum || c == '_' || c == '-' || c == '.'

/-- A text of letters, digits and a few marks that begins with a letter. Blanks stand between
other characters only. -/
def isYamlPlain (s : String) : Bool :=
  let cs := s.toList
  cs.head?.any (fun c => c.isAlpha || c == '_') &&
    cs.getLast?.any isYamlPlainChar &&
    cs.all (fun c => isYamlPlainChar c || c == ' ') &&
    !yamlReserved.contains (String.ofList (cs.map Char.toLower))

/-- A character between double quotes. -/
def yamlChar (c : Char) : List Char :=
  let n := c.toNat
  if c == '"' then ['\\', '"']
  else if c == '\\' then ['\\', '\\']
  else if c == '\n' then ['\\', 'n']
  else if c == '\r' then ['\\', 'r']
  else if c == '\t' then ['\\', 't']
  else if n < 0x20 || (0x7F ≤ n && n ≤ 0xA0) then '\\' :: 'x' :: hexDigits 2 n
  else if n == 0x2028 || n == 0x2029 || (0xD800 ≤ n && n ≤ 0xFFFF) then
    '\\' :: 'u' :: hexDigits 4 n
  else if 0xFFFF < n then '\\' :: 'U' :: hexDigits 8 n
  else [c]

def yamlText (s : String) : String :=
  if isYamlPlain s then s else "\"" ++ String.ofList (s.toList.flatMap yamlChar) ++ "\""

def yamlBreak (level : Nat) : String := "\n" ++ String.ofList (List.replicate (2 * level) ' ')

mutual

/-- A value behind its key. A record or a list begins on the next line. -/
def yamlBehindKey (level : Nat) : Document → String
  | null => " null"
  | flag b => if b then " true" else " false"
  | number n => " " ++ toString n
  | text s => " " ++ yamlText s
  | list [] => " []"
  | list (d :: ds) => yamlBreak level ++ yamlElement level d ++ yamlElements level ds
  | record [] => " \x7b\x7d"
  | record (e :: es) =>
    yamlBreak (level + 1) ++ yamlEntry (level + 1) e ++ yamlEntries (level + 1) es

/-- An element of a list behind its dash. -/
def yamlElement (level : Nat) : Document → String
  | record (e :: es) => "- " ++ yamlEntry (level + 1) e ++ yamlEntries (level + 1) es
  | d => "-" ++ yamlBehindKey (level + 1) d

def yamlElements (level : Nat) : List Document → String
  | [] => ""
  | d :: ds => yamlBreak level ++ yamlElement level d ++ yamlElements level ds

def yamlEntry (level : Nat) : String × Document → String
  | (key, d) => yamlText key ++ ":" ++ yamlBehindKey level d

def yamlEntries (level : Nat) : List (String × Document) → String
  | [] => ""
  | e :: es => yamlBreak level ++ yamlEntry level e ++ yamlEntries level es

end

/-- The document in YAML. -/
def toYaml : Document → String
  | record (e :: es) => yamlEntry 0 e ++ yamlEntries 0 es ++ "\n"
  | list (d :: ds) => yamlElement 0 d ++ yamlElements 0 ds ++ "\n"
  | d => String.ofList ((yamlBehindKey 0 d).toList.drop 1) ++ "\n"

end RegAtlas.Document
