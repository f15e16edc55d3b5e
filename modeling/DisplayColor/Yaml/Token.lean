/-! # Tokens of a YAML text

The words that a text consists of.  What is a matter of layout in the text, where a block collection
begins and ends and which nodes are keys, is told by tokens of their own. -/

namespace DisplayColor.Yaml

inductive ScalarStyle
  | plain
  | singleQuoted
  | doubleQuoted
  /-- Line by line, after `|`. -/
  | literal
  /-- With lines joined, after `>`. -/
  | folded
deriving DecidableEq, Repr

inductive WrittenTag
  | verbatim (tag : String)
  | shorthand (handle suffix : String)
deriving DecidableEq, Repr

inductive Token
  | version (major minor : Nat)
  | handle (name expansion : String)
  | documentStart
  | documentEnd
  | blockSequenceStart
  | blockMappingStart
  | blockEnd
  | flowSequenceStart
  | flowSequenceEnd
  | flowMappingStart
  | flowMappingEnd
  | item
  | separator
  | key
  | value
  | alias (name : String)
  | anchor (name : String)
  | tag (tag : WrittenTag)
  | scalar (style : ScalarStyle) (text : String)
deriving DecidableEq, Repr

end DisplayColor.Yaml
