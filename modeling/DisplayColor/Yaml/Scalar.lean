import DisplayColor.Yaml.Cursor

/-! # YAML scalars

The ways to write a piece of text: plain, in single or double quotes, or as a block of lines.  Each
reader is called at the first character of the scalar and answers with the text and the place after
it; it answers nothing when the text is malformed. -/

namespace DisplayColor.Yaml

/-- Characters that no plain scalar begins with, unless for the first three something follows. -/
def isIndicator (c : Char) : Bool :=
  c ∈ ['-', '?', ':', ',', '[', ']', '{', '}', '#', '&', '*', '!', '|', '>', '\x27', '\x22', '%',
    '@', '\x60']

def startsPlain (flow : Bool) : List Char → Bool
  | [] => false
  | c :: rest =>
    if c == '-' then !startsBlank rest
    else if c == '?' || c == ':' then !flow && !startsBlank rest
    else !startsBlank (c :: rest) && !isIndicator c

/-- The white space in a scalar since its last character. -/
structure Gap where
  /-- The blanks in front of the first line break, the latest first. -/
  blanks : List Char
  /-- The line breaks, the latest first. -/
  breaks : List Char
  /-- The first line break was taken back by a backslash. -/
  continued : Bool

namespace Gap

def none : Gap := ⟨[], [], false⟩

def isBroken (gap : Gap) : Bool := gap.continued || !gap.breaks.isEmpty

def isNone (gap : Gap) : Bool := gap.blanks.isEmpty && !gap.isBroken

/-- One more blank, which counts only in front of the first line break. -/
def blank (gap : Gap) (c : Char) : Gap :=
  if gap.isBroken then gap else { gap with blanks := c :: gap.blanks }

def newline (gap : Gap) (c : Char) : Gap := { gap with blanks := [], breaks := c :: gap.breaks }

/-- Puts what is left of the white space in front of reversed text: a single line feed becomes a
space, and of several line breaks the first is dropped if it is a line feed. -/
def onto (gap : Gap) (reversed : List Char) : List Char :=
  if gap.continued || gap.breaks.getLast? != some '\n' then gap.blanks ++ gap.breaks ++ reversed
  else if gap.breaks.length == 1 then ' ' :: reversed
  else gap.breaks.dropLast ++ reversed

end Gap

/-- The text that was read and the place after it. -/
abbrev Reading := Option (String × Cursor)

/-- A plain scalar, and whether a line break follows it.  It ends before a colon or comment set off
by a blank, at a line that begins left of column `least`, and inside a flow collection at an
indicator.  The white space after it is skipped. -/
def plainFrom (flow : Bool) (least : Nat) (reversed : List Char) (gap : Gap) (line column : Nat) :
    List Char → Option (String × Bool × Cursor)
  | [] => some (String.ofList reversed.reverse, gap.isBroken, ⟨[], line, column⟩)
  | c :: rest =>
    let here : Cursor := ⟨c :: rest, line, column⟩
    let finished := some (String.ofList reversed.reverse, gap.isBroken, here)
    if isBreak c then plainFrom flow least reversed (gap.newline c) (line + 1) 0 rest
    else if isBlank c then
      if c == '\t' && gap.isBroken && column < least then none
      else plainFrom flow least reversed (gap.blank c) line (column + 1) rest
    else if !gap.isNone && (!flow && column < least || here.atAnyMarker || c == '#') then finished
    else if flow && c == ':' && rest.head?.any (fun d => isFlowIndicator d || d == '?') then none
    else if c == ':' && startsBlank rest || flow && isFlowIndicator c then finished
    else plainFrom flow least (c :: gap.onto reversed) .none line (column + 1) rest

def plainScalar (flow : Bool) (least : Nat) (c : Cursor) : Option (String × Bool × Cursor) :=
  plainFrom flow least [] .none c.line c.column c.rest

/-- A scalar in single quotes, from after the opening one; two of them stand for one. -/
def singleQuotedFrom (reversed : List Char) (gap : Gap) (line column : Nat) :
    List Char → Reading
  | [] => none
  | '\x27' :: '\x27' :: rest =>
    singleQuotedFrom ('\x27' :: gap.onto reversed) .none line (column + 2) rest
  | c :: rest =>
    if (⟨c :: rest, line, column⟩ : Cursor).atAnyMarker then none
    else if c == '\x27' then
      some (String.ofList (gap.onto reversed).reverse, ⟨rest, line, column + 1⟩)
    else if isBreak c then singleQuotedFrom reversed (gap.newline c) (line + 1) 0 rest
    else if isBlank c then singleQuotedFrom reversed (gap.blank c) line (column + 1) rest
    else singleQuotedFrom (c :: gap.onto reversed) .none line (column + 1) rest

def singleQuoted (c : Cursor) : Reading :=
  singleQuotedFrom [] .none c.line (c.column + 1) (c.rest.drop 1)

def escape? : Char → Option Char
  | '0' => some '\x00'
  | 'a' => some '\x07'
  | 'b' => some '\x08'
  | 't' => some '\t'
  | '\t' => some '\t'
  | 'n' => some '\n'
  | 'v' => some '\x0b'
  | 'f' => some '\x0c'
  | 'r' => some '\r'
  | 'e' => some '\x1b'
  | ' ' => some ' '
  | '\x22' => some '\x22'
  | '/' => some '/'
  | '\\' => some '\\'
  | 'N' => some '\x85'
  | '_' => some '\xa0'
  | 'L' => some '\u2028'
  | 'P' => some '\u2029'
  | _ => none

def escapeDigits : Char → Nat
  | 'x' => 2
  | 'u' => 4
  | 'U' => 8
  | _ => 0

/-- What a double-quoted scalar does with its next character. -/
inductive QuotedState
  | text
  | escaped
  /-- In a numbered character: the digits still to come and the number so far. -/
  | number (digits value : Nat)

def doubleQuotedFrom (state : QuotedState) (reversed : List Char) (gap : Gap)
    (line column : Nat) : List Char → Reading
  | [] => none
  | c :: rest =>
    match state with
    | .number digits value =>
      match hexDigit? c with
      | none => none
      | some digit =>
        let value := 16 * value + digit
        if 1 < digits then
          doubleQuotedFrom (.number (digits - 1) value) reversed gap line (column + 1) rest
        else if value.isValidChar then
          doubleQuotedFrom .text (Char.ofNat value :: reversed) gap line (column + 1) rest
        else none
    | .escaped =>
      if isBreak c then
        doubleQuotedFrom .text (gap.onto reversed) ⟨[], [], true⟩ (line + 1) 0 rest
      else if 0 < escapeDigits c then
        doubleQuotedFrom (.number (escapeDigits c) 0) (gap.onto reversed) .none line (column + 1)
          rest
      else
        match escape? c with
        | some escaped =>
          doubleQuotedFrom .text (escaped :: gap.onto reversed) .none line (column + 1) rest
        | none => none
    | .text =>
      if (⟨c :: rest, line, column⟩ : Cursor).atAnyMarker then none
      else if c == '\x22' then
        some (String.ofList (gap.onto reversed).reverse, ⟨rest, line, column + 1⟩)
      else if isBreak c then doubleQuotedFrom .text reversed (gap.newline c) (line + 1) 0 rest
      else if isBlank c then doubleQuotedFrom .text reversed (gap.blank c) line (column + 1) rest
      else if c == '\\' then doubleQuotedFrom .escaped reversed gap line (column + 1) rest
      else doubleQuotedFrom .text (c :: gap.onto reversed) .none line (column + 1) rest

def doubleQuoted (c : Cursor) : Reading :=
  doubleQuotedFrom .text [] .none c.line (c.column + 1) (c.rest.drop 1)

/-- What is done with the line breaks at the end of a block scalar. -/
inductive Chomping
  | clip
  | strip
  | keep
deriving DecidableEq, Repr

/-- What the indicators after `|` or `>` say. -/
structure BlockHeader where
  chomping : Chomping
  /-- How far the lines are indented, if it is told. -/
  increment : Option Nat

namespace BlockHeader

def chomping? : Char → Option Chomping
  | '-' => some .strip
  | '+' => some .keep
  | _ => none

def increment? (c : Char) : Option Nat :=
  if c.isDigit then some (c.toNat - '0'.toNat) else none

/-- The indicators, in either order, and the number of them. -/
def ofText (text : List Char) : BlockHeader × Nat :=
  let first := text.head?
  let second := text[1]?
  match first.bind chomping?, first.bind increment? with
  | some chomping, _ =>
    match second.bind increment? with
    | some n => (⟨chomping, some n⟩, 2)
    | none => (⟨chomping, none⟩, 1)
  | none, some n =>
    match second.bind chomping? with
    | some chomping => (⟨chomping, some n⟩, 2)
    | none => (⟨.clip, some n⟩, 1)
  | none, none => (⟨.clip, none⟩, 0)

end BlockHeader

structure Block where
  /-- The text up to the end of its last line, the latest character first. -/
  reversed : List Char := []
  /-- The line break after that line, if there is one. -/
  ending : List Char := []
  /-- The line breaks of empty lines after it, the latest first. -/
  empty : List Char := []
  indented : Bool := false

namespace Block

/-- Begins a line with the character `c`.  In a folded scalar a line break between two lines becomes
a space, or nothing if empty lines stand between them, unless one of the lines begins with a blank.
-/
def begin (block : Block) (folded : Bool) (c : Char) : Block :=
  let joins := folded && block.ending == ['\n'] && !block.indented && !isBlank c
  let ending :=
    if joins then (if block.empty.isEmpty then [' '] else []) else block.ending
  { reversed := block.empty ++ ending ++ block.reversed
    indented := isBlank c }

def text (block : Block) (chomping : Chomping) : String :=
  let reversed :=
    match chomping with
    | .strip => block.reversed
    | .clip => block.ending ++ block.reversed
    | .keep => block.empty ++ block.ending ++ block.reversed
  String.ofList reversed.reverse

end Block

/-- Where in its lines a block scalar is read. -/
inductive BlockState
  /-- In front of a line, while no line in front of it was wider than `widest`. -/
  | margin (widest : Nat)
  | line

/-- A block scalar from the line after its header on.  Its lines are those indented by `indent`, or
if that is not known by as much as the first line that is not empty, or an empty one above it if
that is wider, and no less than `least`. -/
def blockFrom (folded : Bool) (least : Nat) (state : BlockState) (indent : Option Nat)
    (block : Block) (line column : Nat) : List Char → Option (Block × Cursor)
  | [] => some (block, ⟨[], line, column⟩)
  | c :: rest =>
    match state with
    | .line =>
      if isBreak c then
        blockFrom folded least (.margin 0) indent { block with ending := [c] } (line + 1) 0 rest
      else
        blockFrom folded least .line indent { block with reversed := c :: block.reversed } line
          (column + 1) rest
    | .margin widest =>
      let inMargin := indent.all (column < ·)
      if inMargin && c == ' ' then
        blockFrom folded least (.margin widest) indent block line (column + 1) rest
      else if inMargin && c == '\t' then none
      else if isBreak c then
        blockFrom folded least (.margin (max widest column)) indent
          { block with empty := c :: block.empty } (line + 1) 0 rest
      else
        let indent := indent.getD (max (max widest column) (max least 1))
        if column == indent then
          let block := block.begin folded c
          blockFrom folded least .line (some indent)
            { block with reversed := c :: block.reversed } line (column + 1) rest
        else some (block, ⟨c :: rest, line, column⟩)

/-- A block scalar, whose lines are told by their indentation from column `least` on. -/
def blockScalar (folded : Bool) (least : Nat) (c : Cursor) : Reading := do
  let c := c.advance 1
  let (header, length) := BlockHeader.ofText c.rest
  if header.increment == some 0 then none
  else do
    let c ← (c.advance length).toNextLine
    let indent := header.increment.map (least - 1 + ·)
    let (block, after) ← blockFrom folded least (.margin 0) indent {} c.line c.column c.rest
    pure (block.text header.chomping, after)

end DisplayColor.Yaml
