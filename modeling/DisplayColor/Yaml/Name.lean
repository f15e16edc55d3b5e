import DisplayColor.Yaml.Cursor
import DisplayColor.Yaml.Token

/-! # YAML names

Anchors and aliases, tags, and the directives in front of a document.  Each reader is called at the
first character of what it reads and answers with it and the place after it; it answers nothing when
the text is malformed. -/

namespace DisplayColor.Yaml

def anchorName (c : Cursor) : Option (String × Cursor) :=
  let name := (c.rest.drop 1).takeWhile isWordCharacter
  let after := c.advance (name.length + 1)
  let closes (d : Char) : Bool := d ∈ ['?', ':', ',', ']', '}', '%', '@', '\x60']
  if !name.isEmpty && (startsBlank after.rest || after.next?.any closes) then
    some (String.ofList name, after)
  else none

/-- Characters that stand for themselves in a tag; three of them only in a tag that is given in full
or in a directive. -/
def isTagCharacter (full : Bool) (c : Char) : Bool :=
  isWordCharacter c
    || c ∈ [';', '/', '?', ':', '@', '&', '=', '+', '$', '.', '!', '~', '*', '\x27', '(', ')']
    || full && c ∈ [',', '[', ']']

/-- How many octets of a character follow its first one. -/
def octetsAfter? (octet : Nat) : Option Nat :=
  if octet < 0x80 then some 0
  else if octet / 0x20 = 0b110 then some 1
  else if octet / 0x10 = 0b1110 then some 2
  else if octet / 0x08 = 0b11110 then some 3
  else none

/-- The characters of a tag.  An octet can be written as `%` and two hexadecimal digits; `pending`
is how many octets of a character are still to come. -/
def tagCharacters (full : Bool) (pending : Nat) (reversed : List Char) (line column : Nat) :
    List Char → Option (List Char × Cursor)
  | '%' :: high :: low :: rest =>
    match hexDigit? high, hexDigit? low with
    | some high, some low =>
      let octet := 16 * high + low
      let pending? : Option Nat :=
        if pending = 0 then octetsAfter? octet
        else if octet / 0x40 = 0b10 then some (pending - 1)
        else none
      match pending? with
      | some pending =>
        tagCharacters full pending (Char.ofNat octet :: reversed) line (column + 3) rest
      | none => none
    | _, _ => none
  | c :: rest =>
    if pending ≠ 0 || c == '%' then none
    else if isTagCharacter full c then
      tagCharacters full 0 (c :: reversed) line (column + 1) rest
    else some (reversed.reverse, ⟨c :: rest, line, column⟩)
  | [] => if pending = 0 then some (reversed.reverse, ⟨[], line, column⟩) else none

/-- The text of a tag up to its first null character. -/
def tagText (characters : List Char) : String :=
  String.ofList (characters.takeWhile (· != '\x00'))

/-- The characters of a tag, of which there is at least one. -/
def tagPart (full : Bool) (c : Cursor) : Option (String × Cursor) := do
  let (characters, after) ← tagCharacters full 0 [] c.line c.column c.rest
  if characters.isEmpty then none else pure (tagText characters, after)

/-- The length of a handle that stands between two exclamation marks, or of the one exclamation mark
and the word after it; and whether there is a second one. -/
def handleLength (c : Cursor) : Nat × Bool :=
  let word := (c.rest.drop 1).takeWhile isWordCharacter
  let closed := c.rest[word.length + 1]? == some '!'
  (word.length + (if closed then 2 else 1), closed)

def Cursor.text (c : Cursor) (n : Nat) : String := String.ofList (c.rest.take n)

/-- A tag.  One without a suffix is given in full. -/
def writtenTag (flow : Bool) (c : Cursor) : Option (WrittenTag × Cursor) := do
  let (tag, after) ←
    if c.rest[1]? == some '<' then do
      let (tag, after) ← tagPart true (c.advance 2)
      if after.next? == some '>' then pure (.verbatim tag, after.advance 1) else none
    else
      let (length, closed) := handleLength c
      if closed then do
        let (suffix, after) ← tagPart false (c.advance length)
        pure (.shorthand (c.text length) suffix, after)
      else do
        let start := c.advance 1
        let (suffix, after) ← tagCharacters false 0 [] start.line start.column start.rest
        let suffix := tagText suffix
        pure (if suffix.isEmpty then .verbatim "!" else .shorthand "!" suffix, after)
  if startsBlank after.rest || flow && after.next? == some ',' then pure (tag, after) else none

/-- A number in a version, of at most nine digits. -/
def versionNumber (c : Cursor) : Option (Nat × Cursor) :=
  let digits := c.rest.takeWhile Char.isDigit
  if digits.isEmpty || 9 < digits.length then none
  else
    let number := digits.foldl (fun n d => 10 * n + (d.toNat - '0'.toNat)) 0
    some (number, c.advance digits.length)

def versionDirective (c : Cursor) : Option (Token × Cursor) := do
  let (major, c) ← versionNumber c.skipBlanks
  if c.next? == some '.' then do
    let (minor, c) ← versionNumber (c.advance 1)
    pure (.version major minor, c)
  else none

def handleDirective (c : Cursor) : Option (Token × Cursor) := do
  let c := c.skipBlanks
  let (length, closed) := handleLength c
  let after := c.advance length
  if c.next? == some '!' && (closed || length == 1) && after.next?.any isBlank then do
    let (expansion, after) ← tagPart true after.skipBlanks
    if startsBlank after.rest then pure (.handle (c.text length) expansion, after) else none
  else none

def directive (c : Cursor) : Option (Token × Cursor) := do
  let c := c.advance 1
  let name := c.rest.takeWhile isWordCharacter
  let after := c.advance name.length
  let (token, after) ←
    if !startsBlank after.rest then none
    else if name == "YAML".toList then versionDirective after
    else if name == "TAG".toList then handleDirective after
    else none
  pure (token, ← after.toNextLine)

end DisplayColor.Yaml
