/-!
# Tokens of XML

A token is a mark of the markup or any other character. Every token keeps its text, because most
marks are plain text in the value of an attribute, in a comment or in an instruction.
-/

namespace RegAtlas.Xml

/-- A token. -/
inductive Token where
  | char (c : Char)
  /-- One of the two quotation marks. -/
  | quote (mark : Char)
  | equals
  | ampersand
  | semicolon
  | tagStart
  | stopTagStart
  | tagEnd
  | emptyTagEnd
  | commentStart
  | commentEnd
  | cdataStart
  | cdataEnd
  | instructionStart
  | instructionEnd
  | doctypeStart
  /-- The beginning of a declaration in a document type. -/
  | declarationStart
  deriving DecidableEq, Inhabited, Repr

namespace Token

/-- How a token is written. -/
def text : Token → List Char
  | char c | quote c => [c]
  | equals => ['=']
  | ampersand => ['&']
  | semicolon => [';']
  | tagStart => ['<']
  | stopTagStart => ['<', '/']
  | tagEnd => ['>']
  | emptyTagEnd => ['/', '>']
  | commentStart => ['<', '!', '-', '-']
  | commentEnd => ['-', '-', '>']
  | cdataStart => ['<', '!', '[', 'C', 'D', 'A', 'T', 'A', '[']
  | cdataEnd => [']', ']', '>']
  | instructionStart => ['<', '?']
  | instructionEnd => ['?', '>']
  | doctypeStart => ['<', '!', 'D', 'O', 'C', 'T', 'Y', 'P', 'E']
  | declarationStart => ['<', '!']

/-- The token that a character makes by itself. -/
def ofChar (c : Char) : Token :=
  match c with
  | '"' | '\'' => quote c
  | '=' => equals
  | '&' => ampersand
  | ';' => semicolon
  | '>' => tagEnd
  | _ => char c

end Token

end RegAtlas.Xml
