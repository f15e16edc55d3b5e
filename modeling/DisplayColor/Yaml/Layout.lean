import DisplayColor.Yaml.Name
import DisplayColor.Yaml.Scalar

/-! # The layout of a YAML text

A text is divided into tokens.  A token to the right of the open block collections may begin a new
one, and a token to the left of a block collection ends it; inside flow collections columns do not
matter.

Whether a node is a key shows only at the colon after it.  A node where a key may stand is therefore
remembered, and when its colon comes the token that makes it a key is put in front of it. -/

namespace DisplayColor.Yaml

/-- A node that may turn out to be a key. -/
structure PossibleKey where
  /-- The number of tokens in front of the node. -/
  position : Nat
  start : Cursor
  /-- The node must be a key, because it stands in the column of a block collection. -/
  required : Bool

/-- How many bytes the colon of a key may be from its beginning. -/
def keyReach : Nat := 1024

/-- A colon at the cursor can make the node a key: it is on the same line and not too far. -/
def PossibleKey.reaches (key : PossibleKey) (c : Cursor) : Bool :=
  key.start.line == c.line && key.start.bytesTo c ≤ keyReach

structure Layout where
  cursor : Cursor
  /-- The tokens, the latest first. -/
  tokens : List Token := []
  count : Nat := 0
  /-- The columns of the open block collections, the innermost first. -/
  columns : List Nat := []
  /-- The latest node in the innermost collection that may be a key. -/
  key : Option PossibleKey := none
  /-- The like nodes in the collections around each open flow collection, the innermost first. -/
  outer : List (Option PossibleKey) := []
  keyAllowed : Bool := true

namespace Layout

def inFlow (s : Layout) : Bool := !s.outer.isEmpty

/-- The first column to the right of the innermost block collection. -/
def least (s : Layout) : Nat :=
  match s.columns with
  | [] => 0
  | column :: _ => column + 1

def push (s : Layout) (token : Token) (after : Cursor) : Layout :=
  { s with tokens := token :: s.tokens, count := s.count + 1, cursor := after }

def insert (s : Layout) (position : Nat) (tokens : List Token) : Layout :=
  let later := s.count - position
  { s with
    tokens := s.tokens.take later ++ tokens.reverse ++ s.tokens.drop later
    count := s.count + tokens.length }

/-- Ends the block collections to the right of a column, or all of them. -/
def closeBlocks (s : Layout) (column? : Option Nat) : Layout :=
  if s.inFlow then s
  else
    let closed := s.columns.takeWhile fun column => column?.all (· < column)
    { s with
      tokens := closed.map (fun _ => Token.blockEnd) ++ s.tokens
      count := s.count + closed.length
      columns := s.columns.drop closed.length }

/-- Begins a block collection in a column, after the first `position` tokens, unless one is open
there. -/
def openBlock (s : Layout) (column position : Nat) (start : Token) : Layout :=
  if s.inFlow || column < s.least then s
  else { s.insert position [start] with columns := column :: s.columns }

/-- Forgets the node that may be a key; one that must be a key cannot be forgotten. -/
def forgetKey (s : Layout) : Option Layout :=
  if s.key.any (·.required) then none else some { s with key := none }

/-- Remembers the node that begins here, if it may be a key. -/
def rememberKey (s : Layout) : Option Layout :=
  if s.keyAllowed then do
    -- In the column of the innermost block collection only its next key can begin.
    let required := !s.inFlow && s.columns.head? == some s.cursor.column
    let s ← s.forgetKey
    pure { s with key := some ⟨s.count, s.cursor, required⟩ }
  else some s

/-- A token in front of a node or a whole node, which may be a key. -/
def nodeToken (s : Layout) (token : Token) (after : Cursor) : Option Layout := do
  let s ← s.rememberKey
  pure { s.push token after with keyAllowed := false }

def openFlow (s : Layout) (start : Token) : Option Layout := do
  let s ← s.rememberKey
  pure
    { s.push start (s.cursor.advance 1) with
      key := none, outer := s.key :: s.outer, keyAllowed := true }

def closeFlow (s : Layout) (finish : Token) : Option Layout := do
  let s ← s.forgetKey
  pure
    -- The collection as a whole may be a key again, as it was when it began.
    { s.push finish (s.cursor.advance 1) with
      key := s.outer.head?.join, outer := s.outer.drop 1, keyAllowed := false }

def separator (s : Layout) : Option Layout := do
  let s ← s.forgetKey
  pure { s.push .separator (s.cursor.advance 1) with keyAllowed := true }

def item (s : Layout) : Option Layout := do
  if !s.inFlow && !s.keyAllowed then none
  else do
    let s ← (s.openBlock s.cursor.column s.count .blockSequenceStart).forgetKey
    pure { s.push .item (s.cursor.advance 1) with keyAllowed := true }

def keyMark (s : Layout) : Option Layout := do
  if !s.inFlow && !s.keyAllowed then none
  else do
    let s ← (s.openBlock s.cursor.column s.count .blockMappingStart).forgetKey
    pure { s.push .key (s.cursor.advance 1) with keyAllowed := !s.inFlow }

/-- The colon after a key: after a node that may be one, or else where a key may stand. -/
def valueMark (s : Layout) : Option Layout :=
  let colon (s : Layout) (keyAllowed : Bool) : Layout :=
    { s.push .value (s.cursor.advance 1) with keyAllowed }
  match s.key.filter fun key => key.required || key.reaches s.cursor with
  | some key =>
    if key.reaches s.cursor then
      -- That the node was a key is known only now, so what says so goes in front of it.
      let s := s.insert key.position [.key]
      let s := s.openBlock key.start.column key.position .blockMappingStart
      some (colon { s with key := none } false)
    else none
  | none =>
    if !s.inFlow && !s.keyAllowed then none
    else
      let s := s.openBlock s.cursor.column s.count .blockMappingStart
      some (colon { s with key := none } (!s.inFlow))

/-- Ends all block collections in front of a directive or a marker of the document. -/
def closeAll (s : Layout) : Option Layout := do
  let s ← (s.closeBlocks none).forgetKey
  pure { s with keyAllowed := false }

def directive (s : Layout) : Option Layout := do
  let s ← s.closeAll
  let (token, after) ← Yaml.directive s.cursor
  pure (s.push token after)

def marker (s : Layout) (token : Token) : Option Layout := do
  let s ← s.closeAll
  pure (s.push token (s.cursor.advance 3))

def anchor (s : Layout) (token : String → Token) : Option Layout := do
  let (name, after) ← anchorName s.cursor
  s.nodeToken (token name) after

def tag (s : Layout) : Option Layout := do
  let (tag, after) ← writtenTag s.inFlow s.cursor
  s.nodeToken (.tag tag) after

def quoted (s : Layout) (style : ScalarStyle) (read : Cursor → Reading) : Option Layout := do
  let (text, after) ← read s.cursor
  s.nodeToken (.scalar style text) after

def block (s : Layout) (style : ScalarStyle) : Option Layout := do
  let s ← s.forgetKey
  let (text, after) ← blockScalar (style == .folded) s.least s.cursor
  pure { s.push (.scalar style text) after with keyAllowed := true }

/-- A plain scalar; a key may follow it on another line. -/
def plain (s : Layout) : Option Layout := do
  let (text, broken, after) ← plainScalar s.inFlow s.least s.cursor
  let s ← s.nodeToken (.scalar .plain text) after
  pure { s with keyAllowed := broken }

/-- The white space and comments in front of a token, where `comment` says whether a comment is
being skipped.  A byte order mark may begin a line.  Outside flow collections a key may begin on a
new line, and no tab may stand where a key may begin. -/
def skipFrom (flow keyAllowed comment : Bool) (line column : Nat) : List Char → Cursor × Bool
  | [] => (⟨[], line, column⟩, keyAllowed)
  | c :: rest =>
    if isBreak c then skipFrom flow (!flow || keyAllowed) false (line + 1) 0 rest
    else if comment || c == '#' then skipFrom flow keyAllowed true line (column + 1) rest
    else if c == ' ' || c == '\t' && (flow || !keyAllowed) || c == '\ufeff' && column == 0 then
      skipFrom flow keyAllowed false line (column + 1) rest
    else (⟨c :: rest, line, column⟩, keyAllowed)

/-- Goes to the next token, which ends the block collections to the right of it. -/
def toToken (s : Layout) : Layout :=
  let (cursor, keyAllowed) :=
    skipFrom s.inFlow s.keyAllowed false s.cursor.line s.cursor.column s.cursor.rest
  { s with cursor, keyAllowed }.closeBlocks (some cursor.column)

def token (s : Layout) : Option Layout :=
  let c := s.cursor
  if c.column == 0 && c.next? == some '%' then s.directive
  else if c.atMarker '-' then s.marker .documentStart
  else if c.atMarker '.' then s.marker .documentEnd
  else if c.startsWith '-' then s.item
  else if c.next? == some '?' && (s.inFlow || c.startsWith '?') then s.keyMark
  else if c.next? == some ':' && (s.inFlow || c.startsWith ':') then s.valueMark
  else
    match c.next?, s.inFlow with
    | some '[', _ => s.openFlow .flowSequenceStart
    | some '{', _ => s.openFlow .flowMappingStart
    | some ']', _ => s.closeFlow .flowSequenceEnd
    | some '}', _ => s.closeFlow .flowMappingEnd
    | some ',', _ => s.separator
    | some '*', _ => s.anchor .alias
    | some '&', _ => s.anchor .anchor
    | some '!', _ => s.tag
    | some '|', false => s.block .literal
    | some '>', false => s.block .folded
    | some '\x27', _ => s.quoted .singleQuoted singleQuoted
    | some '\x22', _ => s.quoted .doubleQuoted doubleQuoted
    | _, _ => if startsPlain s.inFlow c.rest then s.plain else none

/-- The tokens of the text, where `fuel` is more than the number of tokens still to come. -/
def toEnd : (fuel : Nat) → Layout → Option (List Token)
  | 0, _ => none
  | fuel + 1, s =>
    let s := s.toToken
    if s.cursor.rest.isEmpty then s.closeAll.map (·.tokens.reverse)
    else s.token.bind (toEnd fuel)

end Layout

/-- The tokens of a text.  Every token takes up a character of it. -/
def Token.ofText? (text : String) : Option (List Token) := do
  let start ← Cursor.start? text
  Layout.toEnd (start.rest.length + 1) { cursor := start }

end DisplayColor.Yaml
