/-! # Places in a tree of files

A path begins at the root or at the folder that a program runs in, and leads from one place to the
next.  Places are told apart by the names on the way to them; there are no links. -/

namespace DisplayColor.CommandLine

inductive Origin
  | above (levels : Nat)
  | root
deriving DecidableEq, Repr

/-- A place: an origin and the names on the way down from there, the last name first. -/
structure Place where
  origin : Origin
  names : List String
deriving DecidableEq, Repr

namespace Place

def start (path : String) : Place := ⟨if path.startsWith "/" then .root else .above 0, []⟩

def steps (path : String) : List String := (path.splitOn "/").filter (!·.isEmpty)

/-- The step stays in the tree without naming anything: it leads to the place itself or to the one
above. -/
def isDots (step : String) : Bool := step == "." || step == ".."

def step (place : Place) (name : String) : Place :=
  if name == "." then place
  else if name == ".." then
    match place.names, place.origin with
    | _ :: rest, _ => { place with names := rest }
    | [], .above levels => ⟨.above (levels + 1), []⟩
    | [], .root => place
  else { place with names := name :: place.names }

/-- The place that a path leads to if every folder on the way exists. -/
def ofPath (path : String) : Place := (steps path).foldl step (start path)

def isBelow (lower upper : Place) : Bool :=
  lower.origin == upper.origin && upper.names.isSuffixOf (lower.names.drop 1)
    && !lower.names.isEmpty

end Place

/-- Why a path leads nowhere. -/
inductive PathError
  | noSuchFile
  | notDirectory
  | isDirectory
  | nameTooLong
deriving DecidableEq, Repr

def PathError.message : PathError → String
  | .noSuchFile => "No such file or directory (os error 2)"
  | .notDirectory => "Not a directory (os error 20)"
  | .isDirectory => "Is a directory (os error 21)"
  | .nameTooLong => "File name too long (os error 36)"

/-- The longest name of a file, in bytes. -/
def longestName : Nat := 255

/-- The longest path, in bytes. -/
def longestPath : Nat := 4095

end DisplayColor.CommandLine
