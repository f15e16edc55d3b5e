import DisplayColor.Scalar

/-! # Conversion settings

What can be chosen about a conversion beyond its ends and intent. -/

namespace DisplayColor

structure Settings (α : Type) where
  /-- Whether a source brighter than the target is tone mapped. -/
  toneMapping : Bool
  /-- By how much the reference luminance may be dimmed to make room for highlights. -/
  maxHeadroom : α
  /-- A source is brighter than the target when its peak is higher by more than this factor. -/
  threshold : α
deriving BEq, Repr, Inhabited

namespace Settings

variable {α : Type} [Scalar α]

/-- The settings used unless others are given. -/
def standard : Settings α := ⟨true, 1.5, 1.01⟩

/-- A factor can be used when it is finite and at least one. -/
def isUsable (factor : α) : Bool := Scalar.isFinite factor && !decide (factor < 1)

def isValid (s : Settings α) : Bool := isUsable s.maxHeadroom && isUsable s.threshold

end Settings

/-! ## The environment

One variable of the environment turns tone mapping off, whatever the settings say. -/

def isWhiteSpace (c : Char) : Bool :=
  let n := c.toNat
  (0x09 ≤ n && n ≤ 0x0D) || n == 0x20 || n == 0x85 || n == 0xA0 || n == 0x1680
    || (0x2000 ≤ n && n ≤ 0x200A) || n == 0x2028 || n == 0x2029 || n == 0x202F || n == 0x205F
    || n == 0x3000

def trimmed (text : String) : String :=
  let kept := text.toList.dropWhile isWhiteSpace
  String.ofList (kept.reverse.dropWhile isWhiteSpace).reverse

/-- The text says yes, in any case of ASCII letters. -/
def isAffirmative (text : String) : Bool :=
  (trimmed text).toLower ∈ ["1", "true", "yes", "on"]

namespace Settings

def disablingVariable : String := "DCOLOR_DISABLE_TONEMAPPING"

variable {α : Type}

def withoutToneMapping (s : Settings α) : Settings α := { s with toneMapping := false }

def inEnvironment (s : Settings α) (value : String → Option String) : Settings α :=
  if (value disablingVariable).any isAffirmative then s.withoutToneMapping else s

end Settings

end DisplayColor
