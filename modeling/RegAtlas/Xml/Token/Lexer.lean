import RegAtlas.Xml.Char
import RegAtlas.Xml.Token

/-!
# From characters to tokens

A machine that takes the characters of a document one by one. Which tokens a character makes depends
on the markup around it alone: the machine knows of comments, CDATA sections, instructions and
document types, not of elements.
-/

namespace RegAtlas.Xml

/-- What surrounds the markup. -/
inductive Surroundings where
  | content
  | doctype
  deriving DecidableEq, Inhabited, Repr

/-- Where the machine is. -/
inductive LexerMode where
  /-- Between markup. -/
  | between
  /-- Behind `<`. -/
  | angle
  /-- Behind `<!`. -/
  | bang
  /-- Behind `<!-`. -/
  | bangDash
  /-- In `<![CDATA[`, before the rest of it. -/
  | cdataWord (rest : List Char)
  /-- In `<!DOCTYPE`, before the rest of it. -/
  | doctypeWord (rest : List Char)
  /-- Behind `/`. -/
  | slash
  /-- Behind one closing bracket or two. -/
  | brackets (two : Bool)
  /-- In a comment, behind so many dashes. -/
  | comment (dashes : Nat)
  /-- In a CDATA section, behind so many closing brackets. -/
  | cdata (brackets : Nat)
  /-- In an instruction, perhaps behind a question mark. -/
  | instruction (question : Bool)
  /-- In a declaration of a document type, perhaps behind a quotation mark. -/
  | declaration (mark : Option Char)
  deriving DecidableEq, Inhabited, Repr

/-- The machine. -/
structure Lexer where
  mode : LexerMode := .between
  surroundings : Surroundings := .content
  deriving DecidableEq, Inhabited, Repr

namespace Lexer

/-- Tokens and the machine behind them. -/
abbrev Step := List Token × Lexer

/-- Tokens in front of those of a step. -/
def Step.after (tokens : List Token) (s : Step) : Step := (tokens ++ s.1, s.2)

def goto (l : Lexer) (mode : LexerMode) (tokens : List Token) : Step := (tokens, { l with mode })

/-- A character between markup. The end of a tag ends a document type, too. -/
def between (l : Lexer) (c : Char) : Step :=
  match l.surroundings with
  | .content =>
    match c with
    | '<' => l.goto .angle []
    | '/' => l.goto .slash []
    | ']' => l.goto (.brackets false) []
    | _ => l.goto .between [Token.ofChar c]
  | .doctype =>
    match c with
    | '<' => l.goto .angle []
    | '>' => ([.tagEnd], {})
    | '=' => l.goto .between [.char c]
    | _ => l.goto .between [Token.ofChar c]

/-- A character behind `<`. -/
def angle? (l : Lexer) (c : Char) : Option Step :=
  match c with
  | '?' => some (l.goto (.instruction false) [.instructionStart])
  | '/' => some (l.goto .between [.stopTagStart])
  | '!' => some (l.goto .bang [])
  | _ => if isSpace c || isNameChar c then some ((l.between c).after [.tagStart]) else none

/-- A character behind `<!`. -/
def bang? (l : Lexer) (c : Char) : Option Step :=
  match c with
  | '-' => some (l.goto .bangDash [])
  | '[' => some (l.goto (.cdataWord ['C', 'D', 'A', 'T', 'A', '[']) [])
  | 'D' => some (l.goto (.doctypeWord ['O', 'C', 'T', 'Y', 'P', 'E']) [])
  | 'E' | 'A' | 'N' =>
    if l.surroundings = .doctype then
      some (l.goto (.declaration none) [.declarationStart, .char c])
    else none
  | _ => none

/-- A character of a comment that follows no dash. -/
def comment (l : Lexer) (c : Char) : Step :=
  match c with
  | '-' => l.goto (.comment 1) []
  | _ => l.goto (.comment 0) [.char c]

/-- A character of a CDATA section that follows no closing bracket. -/
def cdata (l : Lexer) (c : Char) : Step :=
  match c with
  | ']' => l.goto (.cdata 1) []
  | _ => l.goto (.cdata 0) [.char c]

/-- A character of an instruction that follows no question mark. -/
def instruction (l : Lexer) (c : Char) : Step :=
  match c with
  | '?' => l.goto (.instruction true) []
  | '<' => l.goto (.instruction false) [.tagStart]
  | '/' => l.goto (.instruction false) [.stopTagStart]
  | _ => l.goto (.instruction false) [Token.ofChar c]

/-- A character of a declaration. -/
def declaration? (l : Lexer) (mark : Option Char) (c : Char) : Option Step :=
  match mark, Token.ofChar c with
  | some mark, t =>
    if c == mark then some (l.goto (.declaration none) [t])
    else some (l.goto (.declaration (some mark)) [.char c])
  | none, .quote mark => some (l.goto (.declaration (some mark)) [.quote mark])
  | none, .tagEnd => some (l.goto .between [.tagEnd])
  | none, .equals => some (l.goto (.declaration none) [.char c])
  | none, t => if c == '<' then none else some (l.goto (.declaration none) [t])

/-- Takes a character. -/
def step? (l : Lexer) (c : Char) : Option Step :=
  match l.mode with
  | .between => some (l.between c)
  | .angle => l.angle? c
  | .bang => l.bang? c
  | .bangDash => if c == '-' then some (l.goto (.comment 0) [.commentStart]) else none
  | .cdataWord rest =>
    if rest.head? != some c then none
    else if rest.tail.isEmpty then some (l.goto (.cdata 0) [.cdataStart])
    else some (l.goto (.cdataWord rest.tail) [])
  | .doctypeWord rest =>
    if rest.head? != some c then none
    else if rest.tail.isEmpty then some ([.doctypeStart], { surroundings := .doctype })
    else some (l.goto (.doctypeWord rest.tail) [])
  | .slash =>
    if c == '>' then some (l.goto .between [.emptyTagEnd])
    else some ((l.between c).after [.char '/'])
  | .brackets false =>
    if c == ']' then some (l.goto (.brackets true) [])
    else some ((l.between c).after [.char ']'])
  | .brackets true =>
    if c == '>' then some (l.goto .between [.cdataEnd])
    else if c == ']' then some (l.goto (.brackets true) [.char ']'])
    else some ((l.between c).after [.char ']', .char ']'])
  | .comment 0 => some (l.comment c)
  | .comment 1 =>
    if c == '-' then some (l.goto (.comment 2) []) else some ((l.comment c).after [.char '-'])
  | .comment _ => if c == '>' then some (l.goto .between [.commentEnd]) else none
  | .cdata 0 => some (l.cdata c)
  | .cdata 1 =>
    if c == ']' then some (l.goto (.cdata 2) []) else some ((l.cdata c).after [.char ']'])
  | .cdata _ =>
    if c == '>' then some (l.goto .between [.cdataEnd])
    else if c == ']' then some (l.goto (.cdata 2) [.char ']'])
    else some ((l.cdata c).after [.char ']', .char ']'])
  | .instruction false => some (l.instruction c)
  | .instruction true =>
    if c == '>' then some (l.goto .between [.instructionEnd])
    else some ((l.instruction c).after [.char '?'])
  | .declaration mark => l.declaration? mark c

end Lexer

end RegAtlas.Xml
