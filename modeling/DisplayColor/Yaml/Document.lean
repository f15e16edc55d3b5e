import DisplayColor.Yaml.Event
import DisplayColor.Yaml.Layout

/-! # YAML documents

A document with its aliases replaced by what they stand for.  An alias refers to a node by a number,
and what has that number in the end is what the alias stands for.  A new anchor takes as its number
how many names there are so far, and gives it to its name.  So a name that is used again is given a
new number, which the next new name will be given too. -/

namespace DisplayColor.Yaml

structure Scalar where
  tag : Option String
  style : ScalarStyle
  text : String
deriving DecidableEq, Repr

inductive Part
  | scalar (s : Scalar)
  /-- An alias for a scalar, or for a collection that is not looked into. -/
  | alias (target : Option Scalar)
  | start (collection : Collection)
  | finish (collection : Collection)
deriving DecidableEq, Repr

/-- The numbers of names, and what each number stands for, the latest first: a scalar, or else a
collection. -/
structure Anchors where
  numbers : List (String × Nat) := []
  targets : List (Nat × Option Scalar) := []

namespace Anchors

def add (anchors : Anchors) (name? : Option String) (target : Option Scalar) : Anchors :=
  match name? with
  | none => anchors
  | some name =>
    let number := anchors.numbers.length
    { numbers := (name, number) :: anchors.numbers.filter (·.1 != name)
      targets := (number, target) :: anchors.targets }

/-- Takes in an event: adds its part to those in front of it, the latest first.  An alias, which
stays a number for now, refers to a name that was given before it. -/
def take (read : List (Nat ⊕ Part) × Anchors) (event : Event) :
    Option (List (Nat ⊕ Part) × Anchors) :=
  let (parts, anchors) := read
  match event with
  | .alias name =>
    (anchors.numbers.lookup name).map fun number => (.inl number :: parts, anchors)
  | .scalar properties style text =>
    let scalar : Scalar := ⟨properties.tag, style, text⟩
    some (.inr (.scalar scalar) :: parts, anchors.add properties.anchor scalar)
  | .start properties collection =>
    some (.inr (.start collection) :: parts, anchors.add properties.anchor none)
  | .finish collection => some (.inr (.finish collection) :: parts, anchors)

/-- The part that stands at a place: an alias by its number, or a part. -/
def resolve (anchors : Anchors) : Nat ⊕ Part → Part
  | .inl number => .alias (anchors.targets.lookup number).join
  | .inr part => part

end Anchors

def Part.ofEvents? (events : List Event) : Option (List Part) := do
  let (parts, anchors) ← events.foldlM Anchors.take ([], {})
  pure (parts.reverse.map anchors.resolve)

/-- The parts of the one document in a text; none if there is no document. -/
def Part.ofText? (text : String) : Option (List Part) := do
  let tokens ← Token.ofText? text
  let events ← Event.ofTokens? tokens
  Part.ofEvents? events

end DisplayColor.Yaml
