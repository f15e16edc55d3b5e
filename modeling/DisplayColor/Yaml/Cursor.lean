/-! # Places in a YAML text

The place that reading has reached in a text, and the characters that matter there.  What a line
means depends on the column of its first token, so a place knows its line and column.

A tab separates tokens within a line but never indents one. -/

namespace DisplayColor.Yaml

structure Cursor where
  rest : List Char
  line : Nat
  column : Nat

def isBlank (c : Char) : Bool := c == ' ' || c == '\t'

def isBreak (c : Char) : Bool := c == '\n' || c == '\u2028' || c == '\u2029'

/-- There is no token at the front: a blank, a line break or the end of the text. -/
def startsBlank : List Char → Bool
  | [] => true
  | c :: _ => isBlank c || isBreak c

def isWordCharacter (c : Char) : Bool := c.isAlphanum || c == '_' || c == '-'

def isFlowIndicator (c : Char) : Bool := c ∈ [',', '[', ']', '{', '}']

def hexDigit? (c : Char) : Option Nat :=
  if c.isDigit then some (c.toNat - '0'.toNat)
  else if 'a' ≤ c ∧ c ≤ 'f' then some (c.toNat - 'a'.toNat + 10)
  else if 'A' ≤ c ∧ c ≤ 'F' then some (c.toNat - 'A'.toNat + 10)
  else none

def isAllowed (c : Char) : Bool :=
  let n := c.toNat
  n == 0x09 || n == 0x0A || n == 0x0D || (0x20 ≤ n && n ≤ 0x7E) || n == 0x85
    || (0xA0 ≤ n && n ≤ 0xD7FF) || (0xE000 ≤ n && n ≤ 0xFFFD) || 0x10000 ≤ n

/-- Writes every line break as a line feed, except the separators of lines and of paragraphs. -/
def unifyBreaks : List Char → List Char
  | [] => []
  | '\r' :: '\n' :: rest => '\n' :: unifyBreaks rest
  | c :: rest => (if c == '\r' || c == '\x85' then '\n' else c) :: unifyBreaks rest

namespace Cursor

/-- The beginning of a text, unless it holds a character that is not allowed. -/
def start? (text : String) : Option Cursor :=
  let characters := text.toList
  if characters.all isAllowed then some ⟨unifyBreaks characters, 0, 0⟩ else none

/-- The place after the next `n` characters, none of which is a line break. -/
def advance (c : Cursor) (n : Nat) : Cursor :=
  { c with rest := c.rest.drop n, column := c.column + n }

def next? (c : Cursor) : Option Char := c.rest.head?

/-- The number of bytes from here to a later place on the same line. -/
def bytesTo (c later : Cursor) : Nat :=
  (c.rest.take (later.column - c.column)).foldl (fun bytes char => bytes + char.utf8Size) 0

def skipBlanks (c : Cursor) : Cursor := c.advance (c.rest.takeWhile isBlank).length

/-- The beginning of the next line, if nothing but blanks and a comment stand in front of it; at the
end of the text, that end. -/
def toNextLine (c : Cursor) : Option Cursor :=
  let c := c.skipBlanks
  let c :=
    if c.next? == some '#' then c.advance (c.rest.takeWhile (!isBreak ·)).length else c
  match c.rest with
  | [] => some c
  | d :: rest => if isBreak d then some ⟨rest, c.line + 1, 0⟩ else none

/-- A document begins or ends here, which `mark` three times tells. -/
def atMarker (c : Cursor) (mark : Char) : Bool :=
  c.column == 0 && match c.rest with
    | x :: y :: z :: rest => x == mark && y == mark && z == mark && startsBlank rest
    | _ => false

def atAnyMarker (c : Cursor) : Bool := c.atMarker '-' || c.atMarker '.'

/-- The indicator `mark` stands here, with nothing right after it. -/
def startsWith (c : Cursor) (mark : Char) : Bool :=
  match c.rest with
  | d :: rest => d == mark && startsBlank rest
  | [] => false

end Cursor

end DisplayColor.Yaml
