import DisplayColor.Yaml.Token

/-! # Events of a YAML document

A document is told as a row of events: scalars, aliases, and the beginnings and ends of collections.
They are found from the tokens by keeping a stack of goals.  The first goal and the next tokens
determine what is told and which goals take its place, so tokens are never read twice.

A part that may be left out, as the value of a key, is told as an empty plain scalar. -/

namespace DisplayColor.Yaml

structure Properties where
  anchor : Option String := none
  tag : Option String := none

inductive Collection
  | sequence
  | mapping
deriving DecidableEq, Repr

inductive Event
  | alias (name : String)
  | scalar (properties : Properties) (style : ScalarStyle) (text : String)
  | start (properties : Properties) (collection : Collection)
  | finish (collection : Collection)

def Event.empty : Event := .scalar {} .plain ""

/-- What handles of tags stand for; the first entry for a handle counts. -/
abbrev Handles := List (String × String)

def standardHandles : Handles := [("!", "!"), ("!!", "tag:yaml.org,2002:")]

/-- The tag that is written, unless its handle stands for nothing. -/
def WrittenTag.resolve? (handles : Handles) : WrittenTag → Option String
  | .verbatim tag => some tag
  | .shorthand handle suffix => (handles.lookup handle).map (· ++ suffix)

/-- The anchor and tag in front of a node, in either order, and the tokens after them. -/
def Properties.ofTokens? (handles : Handles) : List Token → Option (Properties × List Token)
  | .anchor name :: .tag tag :: rest | .tag tag :: .anchor name :: rest =>
    (tag.resolve? handles).map fun tag => (⟨some name, some tag⟩, rest)
  | .anchor name :: rest => some (⟨some name, none⟩, rest)
  | .tag tag :: rest => (tag.resolve? handles).map fun tag => (⟨none, some tag⟩, rest)
  | tokens => some ({}, tokens)

inductive Goal
  /-- A node; if `block` holds a block collection will do, and if `inKeyColumn` holds also one whose
  items stand in the column of the key before it. -/
  | node (block inKeyColumn : Bool)
  | blockItems
  /-- The same for a sequence in the column of its key, which the next key ends. -/
  | itemsInKeyColumn
  | blockEntries
  | blockValue
  | flowItems (first : Bool)
  /-- The key of an entry that is an item of a flow sequence; where it is left out, the token that
  shows this is used up. -/
  | pairKey
  | pairValue
  | pairEnd
  | flowEntries (first : Bool)
  | flowValue
  /-- The value of a node in a flow mapping that is no key, which is empty. -/
  | flowMissingValue
deriving DecidableEq, Repr

/-- What is told in one step, the goals that take the place of the first one, and the tokens left.
-/
structure Step where
  events : List Event
  goals : List Goal
  rest : List Token

namespace Step

/-- Tells an empty node. -/
def empty (goals : List Goal) (rest : List Token) : Option Step := some ⟨[.empty], goals, rest⟩

/-- The node that comes next if it satisfies `here`, else an empty one. -/
def nodeOr (here : Bool) (node : Goal) (goals : List Goal) (rest : List Token) : Option Step :=
  if here then some ⟨[], node :: goals, rest⟩ else empty goals rest

def node (handles : Handles) (block inKeyColumn : Bool) (tokens : List Token) : Option Step := do
  let (properties, rest) ← Properties.ofTokens? handles tokens
  let isBare := properties.anchor.isNone && properties.tag.isNone
  let start (collection : Collection) (goal : Goal) (rest : List Token) : Option Step :=
    some ⟨[.start properties collection], [goal], rest⟩
  match rest with
  | .alias name :: after =>
    if isBare then some ⟨[.alias name], [], after⟩
    else some ⟨[.scalar properties .plain ""], [], rest⟩
  | .scalar style text :: after =>
    let properties :=
      -- On a scalar the tag `!` is the same as none.
      if properties.tag == some "!" then { properties with tag := none } else properties
    some ⟨[.scalar properties style text], [], after⟩
  | .flowSequenceStart :: after => start .sequence (.flowItems true) after
  | .flowMappingStart :: after => start .mapping (.flowEntries true) after
  | _ =>
    match rest, block, inKeyColumn with
    | .item :: _, _, true => start .sequence .itemsInKeyColumn rest
    | .blockSequenceStart :: after, true, _ => start .sequence .blockItems after
    | .blockMappingStart :: after, true, _ => start .mapping .blockEntries after
    | _, _, _ => if isBare then none else some ⟨[.scalar properties .plain ""], [], rest⟩

def startsWith (tokens : List Token) (heads : List Token) : Bool :=
  tokens.head?.any fun token => heads.contains token

def next (handles : Handles) : Goal → List Token → Option Step
  | .node block inKeyColumn, tokens => node handles block inKeyColumn tokens
  | .blockItems, .item :: rest =>
    nodeOr (!startsWith rest [.item, .blockEnd]) (.node true false) [.blockItems] rest
  | .blockItems, .blockEnd :: rest => some ⟨[.finish .sequence], [], rest⟩
  | .blockItems, _ => none
  | .itemsInKeyColumn, .item :: rest =>
    nodeOr (!startsWith rest [.item, .key, .value, .blockEnd]) (.node true false)
      [.itemsInKeyColumn] rest
  | .itemsInKeyColumn, rest => some ⟨[.finish .sequence], [], rest⟩
  | .blockEntries, .key :: rest =>
    nodeOr (!startsWith rest [.key, .value, .blockEnd]) (.node true true) [.blockValue] rest
  | .blockEntries, .blockEnd :: rest => some ⟨[.finish .mapping], [], rest⟩
  | .blockEntries, _ => none
  | .blockValue, .value :: rest =>
    nodeOr (!startsWith rest [.key, .value, .blockEnd]) (.node true true) [.blockEntries] rest
  | .blockValue, rest => empty [.blockEntries] rest
  | .flowItems first, tokens =>
    let tokens? :=
      match first, tokens with
      | true, _ | _, .flowSequenceEnd :: _ => some tokens
      | _, .separator :: rest => some rest
      | _, _ => none
    match tokens? with
    | some (.flowSequenceEnd :: rest) => some ⟨[.finish .sequence], [], rest⟩
    | some (.key :: rest) => some ⟨[.start {} .mapping], [.pairKey, .flowItems false], rest⟩
    | some rest => some ⟨[], [.node false false, .flowItems false], rest⟩
    | none => none
  | .pairKey, tokens =>
    if startsWith tokens [.value, .separator, .flowSequenceEnd] then
      empty [.pairValue] (tokens.drop 1)
    else some ⟨[], [.node false false, .pairValue], tokens⟩
  | .pairValue, .value :: rest =>
    nodeOr (!startsWith rest [.separator, .flowSequenceEnd]) (.node false false) [.pairEnd] rest
  | .pairValue, rest => empty [.pairEnd] rest
  | .pairEnd, rest => some ⟨[.finish .mapping], [], rest⟩
  | .flowEntries first, tokens =>
    let tokens? :=
      match first, tokens with
      | true, _ | _, .flowMappingEnd :: _ => some tokens
      | _, .separator :: rest => some rest
      | _, _ => none
    match tokens? with
    | some (.flowMappingEnd :: rest) => some ⟨[.finish .mapping], [], rest⟩
    | some (.key :: rest) =>
      nodeOr (!startsWith rest [.value, .separator, .flowMappingEnd]) (.node false false)
        [.flowValue, .flowEntries false] rest
    | some rest => some ⟨[], [.node false false, .flowMissingValue, .flowEntries false], rest⟩
    | none => none
  | .flowValue, .value :: rest =>
    nodeOr (!startsWith rest [.separator, .flowMappingEnd]) (.node false false) [] rest
  | .flowValue, rest => empty [] rest
  | .flowMissingValue, rest => empty [] rest

end Step

/-- Reaches all goals, adding to the events, the latest of which comes first. -/
def Event.reach (handles : Handles) :
    (fuel : Nat) → List Event → List Goal → List Token → Option (List Event × List Token)
  | _, events, [], rest => some (events.reverse, rest)
  | 0, _, _ :: _, _ => none
  | fuel + 1, events, goal :: goals, tokens => do
    let step ← Step.next handles goal tokens
    Event.reach handles fuel (step.events.reverse ++ events) (step.goals ++ goals) step.rest

/-- The directives in front of a document, which give at most one version, a known one, and at most
one meaning for each handle; and the tokens after them. -/
def directives (hasVersion : Bool) (handles : Handles) :
    List Token → Option (Handles × List Token)
  | .version major minor :: rest =>
    if hasVersion || major != 1 || minor != 1 && minor != 2 then none
    else directives true handles rest
  | .handle name expansion :: rest =>
    if (handles.lookup name).isSome then none
    else directives hasVersion (handles ++ [(name, expansion)]) rest
  | rest => some (handles, rest)

/-- The events of a node that is a whole document, and the tokens after it.  A token that is used up
adds at most three goals, so there are at most four steps for each. -/
def Event.ofNode (handles : Handles) (tokens : List Token) : Option (List Event × List Token) :=
  let fuel := 4 * (tokens.length + 2)
  Event.reach (handles ++ standardHandles) fuel [] [.node true false] tokens

/-- The events of the document that the tokens make; none if there is no document.  Only ends of the
document may follow it. -/
def Event.ofTokens? (tokens : List Token) : Option (List Event) := do
  match tokens with
  | [] => pure []
  | .version _ _ :: _ | .handle _ _ :: _ | .documentStart :: _ => do
    let (handles, rest) ← directives false [] tokens
    match rest with
    | .documentStart :: rest =>
      let isEmpty :=
        match rest with
        | [] | .version _ _ :: _ | .handle _ _ :: _ | .documentStart :: _ | .documentEnd :: _ =>
          true
        | _ => false
      let (events, rest) ← if isEmpty then some ([.empty], rest) else ofNode handles rest
      finished events rest
    | _ => none
  | _ => do
    let (events, rest) ← ofNode [] tokens
    finished events rest
where
  finished (events : List Event) (rest : List Token) : Option (List Event) :=
    if rest.all (· == .documentEnd) then some events else none

end DisplayColor.Yaml
