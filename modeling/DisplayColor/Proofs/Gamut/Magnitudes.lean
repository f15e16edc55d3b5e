import DisplayColor.Gamut.Colorimetry
import DisplayColor.Proofs.Magnitudes

/-! # Magnitudes of gamut conversions

The matrices of the named colorimetries are a finite matter and are looked up, in the precision in
which they are used.  What is made of them is bounded from there, so that pairs of colorimetries do
not have to be gone through. -/

namespace DisplayColor

namespace Adaptation

/-- The responses of the cones to a white. -/
def responses (white : Vec3 Single) : Vec3 Double := (bradford (α := Single)).widen.apply white.widen

/-- The responses differ from one by at most a factor of two. -/
def isVisible (white : Vec3 Single) : Bool :=
  let responses := responses white
  responses.isAtMost 1 && responses.isAtLeast 1

theorem atMost_cones : ((bradford (α := Single)).widen : Mat3 Double).AtMost 1 :=
  Mat3.atMost_of_isAtMost (by decide +kernel)

theorem atMost_inverse_cones {inverse : Mat3 Double}
    (found : ((bradford (α := Single)).widen : Mat3 Double).wideInverse? = some inverse) :
    inverse.AtMost 0 := by
  have check : ((bradford (α := Single)).widen : Mat3 Double).wideInverse?.all (Mat3.isAtMost 0) := by
    decide +kernel
  rw [found] at check
  exact Mat3.atMost_of_isAtMost check

theorem isBounded_gains {source target : Vec3 Single} (sourceVisible : isVisible source)
    (targetVisible : isVisible target) :
    (responses target / responses source).IsBounded (Vec3.splat 1) 2 := by
  simp only [isVisible, Bool.and_eq_true] at sourceVisible targetVisible
  exact (Vec3.isBounded_of_isAtMost targetVisible.1).div
    (Vec3.atLeast_of_isAtLeast sourceVisible.2) (by simp)

theorem atMost_between {source target : Vec3 Single} (sourceVisible : isVisible source)
    (targetVisible : isVisible target) :
    (between (bradford (α := Single)).widen source.widen target.widen : Mat3 Double).AtMost 5 := by
  have identity : (Mat3.identity : Mat3 Double).AtMost 5 := Mat3.atMost_identity.mono (by decide)
  unfold between
  split
  · exact identity
  · rename_i inverse found
    simp only
    split
    · have gains := isBounded_gains sourceVisible targetVisible
      have scaled := (atMost_inverse_cones found).mul_diagonal gains (by simp)
      exact scaled.mul atMost_cones (by simp)
    · exact identity

end Adaptation

namespace Colorimetry

/-- The matrices are small and the white can be adapted. -/
def isModerate (c : Colorimetry Single Double) : Bool :=
  c.toXyz.isAtMost 1 && c.fromXyz.isAtMost 2 && Adaptation.isVisible c.white

theorem isModerate_ofNamed (named : NamedColorimetry) : (ofNamed named).isModerate := by
  cases named <;> decide +kernel

variable {c source target : Colorimetry Single Double}

theorem matrices_atMost (moderate : c.isModerate) : c.toXyz.AtMost 1 ∧ c.fromXyz.AtMost 2 := by
  simp only [isModerate, Bool.and_eq_true] at moderate
  exact ⟨Mat3.atMost_of_isAtMost moderate.1.1, Mat3.atMost_of_isAtMost moderate.1.2⟩

theorem atMost_wideConversion (sourceModerate : source.isModerate)
    (targetModerate : target.isModerate) (intent : Intent) :
    (source.wideConversion target intent).AtMost 12 := by
  have toXyz := (matrices_atMost sourceModerate).1
  have fromXyz := (matrices_atMost targetModerate).2
  have adaptation : (if intent.adaptsWhite then
      Adaptation.between (Adaptation.bradford (α := Single)).widen source.white.widen
        target.white.widen
      else Mat3.identity : Mat3 Double).AtMost 5 := by
    simp only [isModerate, Bool.and_eq_true] at sourceModerate targetModerate
    split
    · exact Adaptation.atMost_between sourceModerate.2 targetModerate.2
    · exact Mat3.atMost_identity.mono (by decide)
  exact (fromXyz.mul adaptation (by simp)).mul toXyz (by simp)

/-! ## The way through cone responses -/

theorem atMost_toLms (moderate : c.isModerate) : c.toLms.AtMost 4 := by
  have cones : ((xyzToLms (α := Single)).widen : Mat3 Double).AtMost 1 :=
    Mat3.atMost_of_isAtMost (by decide +kernel)
  exact (cones.mul (matrices_atMost moderate).1 (by simp)).narrow (by decide)

theorem atMost_fromLms (moderate : c.isModerate) : c.fromLms.AtMost 6 := by
  have cones : (((xyzToLms (α := Single)).widen : Mat3 Double).wideInverse?.getD
      (lmsToXyz (α := Single)).widen).AtMost 2 := Mat3.atMost_of_isAtMost (by decide +kernel)
  exact ((matrices_atMost moderate).2.mul cones (by simp)).narrow (by decide)

theorem atMost_lmsToIctcp : (lmsToIctcp : Mat3 Single).AtMost 3 :=
  Mat3.atMost_of_isAtMost (by decide +kernel)

theorem atMost_ictcpToLms : (ictcpToLms : Mat3 Single).AtMost 0 :=
  Mat3.atMost_of_isAtMost (by decide +kernel)

end Colorimetry

end DisplayColor
