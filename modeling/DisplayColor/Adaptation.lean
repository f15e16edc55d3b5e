import DisplayColor.Mat3

/-! # Chromatic adaptation

Converting between colorimetries with different whites needs a transform that carries one white to
the other.  It scales the three responses of a cone matrix, here usually the Bradford one, and is
derived in the wide type. -/

namespace DisplayColor.Adaptation

section Constants

variable {α : Type} [Scalar α]

/-- The standard illuminant of daylight at 6504 K. -/
def d65 : Vec3 α := ⟨0.95047, 1, 1.08883⟩

/-- The standard illuminant of horizon light at 5003 K. -/
def d50 : Vec3 α := ⟨0.96422, 1, 0.82521⟩

/-- The illuminant of equal energy. -/
def equalEnergy : Vec3 α := ⟨1, 1, 1⟩

def bradford : Mat3 α :=
  ⟨⟨0.8951, 0.2664, -0.1614⟩, ⟨-0.7502, 1.7135, 0.0367⟩, ⟨0.0389, -0.0685, 1.0296⟩⟩

/-- Scales the responses of `cones` by those of `target` over those of `source`.  The identity when
`cones` has no inverse or a gain is infinite or undefined, which a white without response to one
cone causes. -/
def between (cones : Mat3 α) (source target : Vec3 α) : Mat3 α :=
  match cones.wideInverse? with
  | none => Mat3.identity
  | some inverse =>
    let gains := cones.apply target / cones.apply source
    if gains.isFinite then inverse * Mat3.diagonal gains * cones else Mat3.identity

end Constants

variable {α ω : Type} [Scalar α] [Scalar ω] [Precision α ω]

/-- The adaptation between two whites, derived in the wide type and rounded once. -/
def rounded (cones : Mat3 α) (source target : Vec3 α) : Mat3 α :=
  (between cones.widen source.widen target.widen).narrow

end DisplayColor.Adaptation
