import RegAtlas.Yaml.Cursor
import RegAtlas.Yaml.Token

/-!
# Anchors, tags and directives

The properties that may stand before a node, and the lines that may stand before a document.
-/

namespace RegAtlas.Yaml

/-! ### Anchors -/

/-- Reads the name of an anchor or alias behind its mark. -/
def readAnchor? (here : Cursor) : Option (String × Cursor) :=
  let (name, behind) := here.span isWordChar
  let ended := isSpaced behind.rest ||
    behind.rest.head?.any fun c => "?:,]\x7d%@".toList.contains c || c.toNat == 0x60
  if name.isEmpty || !ended then none else some (String.ofList name, behind)

/-! ### Tags -/

/-- A character of the address that a tag is. -/
def isTagChar (verbatim : Bool) (c : Char) : Bool :=
  isWordChar c || ";/?:@&=+$.!~*'()%".toList.contains c || (verbatim && ",[]".toList.contains c)

/-- The byte that two hexadecimal digits behind a percent sign denote. -/
def byteOfEscape? (high low : Char) : Option UInt8 :=
  (hexNumber? [high, low]).map UInt8.ofNat

/-- How many more bytes a character of UTF-8 has that begins with a byte. -/
def trailingBytes? (b : UInt8) : Option Nat :=
  if b < 0x80 then some 0
  else if b < 0xC0 then none
  else if b < 0xE0 then some 1
  else if b < 0xF0 then some 2
  else if b < 0xF8 then some 3
  else none

/-- The bytes of a text in which some are escaped. The bytes of a character are escaped together;
whether they denote one is not checked further. The first argument counts those still to come. -/
def unescape? : Nat → List Char → Option Address
  | 0, '%' :: high :: low :: cs => do
    let b ← byteOfEscape? high low
    return b :: (← unescape? (← trailingBytes? b) cs)
  | n + 1, '%' :: high :: low :: cs => do
    let b ← byteOfEscape? high low
    if 0x80 ≤ b && b < 0xC0 then return b :: (← unescape? n cs) else none
  | 0, c :: cs => if c == '%' then none else do
      return (String.singleton c).toUTF8.toList ++ (← unescape? 0 cs)
  | 0, [] => some []
  | _ + 1, _ => none

/-- Reads the part of a tag that is an address. A zero byte ends an address before its end. The
second component of the result tells whether anything is written. -/
def readAddress? (verbatim : Bool) (here : Cursor) : Option (Address × Bool × Cursor) := do
  let (address, behind) := here.span (isTagChar verbatim)
  return ((← unescape? 0 address).takeWhile (· != 0), !address.isEmpty, behind)

/-- Reads the name between two exclamation marks, which may be empty. -/
def readHandle? (here : Cursor) : Option (String × Cursor) :=
  match here.rest with
  | '!' :: cs =>
    let name := cs.takeWhile isWordChar
    if (cs.drop name.length).head? == some '!' then
      some ("!" ++ String.ofList name ++ "!", here.skip (name.length + 2))
    else none
  | _ => none

/-- Reads a tag: an address between angle brackets, or a handle and the rest of the address. A lone
exclamation mark is a tag without handle. -/
def readTag? (inFlow : Bool) (here : Cursor) : Option (Token × Cursor) := do
  let (token, behind) ←
    if here.sees "!<" then do
      let (address, written, behind) ← readAddress? true (here.skip 2)
      if !written || !behind.sees ">" then none
      else some (Token.tag "" address, behind.skip 1)
    else match readHandle? here with
      | some (handle, behind) => do
        let (suffix, written, behind) ← readAddress? false behind
        if written then some (.tag handle suffix, behind) else none
      | none => do
        let (suffix, _, behind) ← readAddress? false (here.skip 1)
        some (if suffix.isEmpty then .tag "" (.ofString "!") else .tag "!" suffix, behind)
  if isSpaced behind.rest || (inFlow && behind.sees ",") then some (token, behind) else none

/-! ### Directives -/

/-- Reads a number of at most nine digits. -/
def readNumber? (here : Cursor) : Option (Nat × Cursor) :=
  let (digits, behind) := here.span Char.isDigit
  if digits.isEmpty || 9 < digits.length then none
  else some (digits.foldl (fun n c => 10 * n + (c.toNat - 48)) 0, behind)

def readVersion? (here : Cursor) : Option (Token × Cursor) := do
  let (major, behind) ← readNumber? here
  if !behind.sees "." then none
  else
    let (minor, behind) ← readNumber? (behind.skip 1)
    return (.version major minor, behind)

/-- Reads the handle that a directive declares, and the address that it stands for. -/
def readHandleDirective? (here : Cursor) : Option (Token × Cursor) := do
  let (name, behind) ← match readHandle? here with
    | some read => some read
    | none => if here.sees "!" then some ("!", here.skip 1) else none
  if !behind.rest.head?.any isBlank then none
  else
    let (lead, written, behind) ← readAddress? true (behind.skipWhile isBlank)
    if written && isSpaced behind.rest then return (.handle name lead, behind) else none

/-- Reads a directive behind its mark, with the rest of its line. -/
def readDirective? (here : Cursor) : Option (Token × Cursor) := do
  let (name, behind) := here.span isWordChar
  let value := behind.skipWhile isBlank
  if !isSpaced behind.rest then none
  else
    let (token, behind) ←
      if name == "YAML".toList then readVersion? value
      else if name == "TAG".toList then readHandleDirective? value
      else none
    return (token, ← behind.endLine?)

end RegAtlas.Yaml
