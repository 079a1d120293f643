import RegAtlas.Document

/-!
# Documents in JSON

Nested elements are indented by two blanks.
-/

namespace RegAtlas.Document

/-- A character between quotes. -/
def jsonChar (c : Char) : List Char :=
  if c == '"' then ['\\', '"']
  else if c == '\\' then ['\\', '\\']
  else if c == '\n' then ['\\', 'n']
  else if c == '\r' then ['\\', 'r']
  else if c == '\t' then ['\\', 't']
  else if c.toNat < 0x20 then '\\' :: 'u' :: hexDigits 4 c.toNat
  else [c]

def jsonText (s : String) : String :=
  "\"" ++ String.ofList (s.toList.flatMap jsonChar) ++ "\""

/-- A line break and the indentation of a level. -/
def jsonBreak (level : Nat) : String := "\n" ++ String.ofList (List.replicate (2 * level) ' ')

mutual

def jsonAt (level : Nat) : Document → String
  | null => "null"
  | flag b => if b then "true" else "false"
  | number n => toString n
  | text s => jsonText s
  | list [] => "[]"
  | list (d :: ds) =>
    "[" ++ jsonBreak (level + 1) ++ jsonAt (level + 1) d ++ jsonElements (level + 1) ds ++
      jsonBreak level ++ "]"
  | record [] => "\x7b\x7d"
  | record (e :: es) =>
    "\x7b" ++ jsonBreak (level + 1) ++ jsonEntry (level + 1) e ++ jsonEntries (level + 1) es ++
      jsonBreak level ++ "\x7d"

def jsonElements (level : Nat) : List Document → String
  | [] => ""
  | d :: ds => "," ++ jsonBreak level ++ jsonAt level d ++ jsonElements level ds

def jsonEntry (level : Nat) : String × Document → String
  | (key, d) => jsonText key ++ ": " ++ jsonAt level d

def jsonEntries (level : Nat) : List (String × Document) → String
  | [] => ""
  | e :: es => "," ++ jsonBreak level ++ jsonEntry level e ++ jsonEntries level es

end

/-- The document in JSON. -/
def toJson (d : Document) : String := jsonAt 0 d

end RegAtlas.Document
