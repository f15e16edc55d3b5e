import DisplayColor.Proofs.Fusion.Tolerance

/-! # Decoding what was encoded

In exact arithmetic every curve decodes what it has encoded, where the encoder and the decoder of
the curve agree on the formula.  The linear curve and the power law have one formula for all light,
and the sign is carried around the power.  The quantizer has one between black and its peak; what lies
outside is moved to the ends.

The other two curves are made of segments.  Their thresholds for light and for signals are rounded
numbers of the standards, so that next to a threshold the encoder may end one segment where the
decoder begins another one.  There, and only there, light does not come back as it was. -/

namespace DisplayColor

namespace Scalar

theorem signum_real (x : ℝ) : signum x = if x < 0 then -1 else 1 := by
  simp only [signum, isNaN_real, Bool.false_eq_true, if_false, literal_one]
  exact if_congr decide_eq_true_iff rfl rfl

theorem pow_real (base exponent : ℝ) : Scalar.pow base exponent = base ^ exponent := rfl

end Scalar

/-! ## The power law -/

namespace PowerLaw

theorem encode_eq_decode (light exponent : ℝ) :
    encode light exponent = decode light (1 / exponent) := by
  rw [encode, decode, Scalar.literal_one]

theorem decode_of_nonneg {signal : ℝ} (nonneg : 0 ≤ signal) (exponent : ℝ) :
    decode signal exponent = signal ^ exponent := by
  rw [decode, Scalar.signum_real, if_neg (not_lt.mpr nonneg), one_mul, Scalar.abs_real,
    abs_of_nonneg nonneg, Scalar.pow_real]

theorem decode_neg {signal : ℝ} (positive : 0 < signal) (exponent : ℝ) :
    decode (-signal) exponent = -signal ^ exponent := by
  rw [decode, Scalar.signum_real, if_pos (neg_lt_zero.mpr positive), neg_one_mul, Scalar.abs_real,
    abs_neg, abs_of_pos positive, Scalar.pow_real]

/-- Powers with inverse exponents undo each other, with any sign. -/
theorem decode_encode {exponent : ℝ} (nonzero : exponent ≠ 0) (light : ℝ) :
    decode (encode light exponent) exponent = light := by
  rw [encode_eq_decode, one_div]
  obtain nonneg | negative := le_or_gt 0 light
  · rw [decode_of_nonneg nonneg, decode_of_nonneg (Real.rpow_nonneg nonneg _),
      Real.rpow_inv_rpow nonneg nonzero]
  · obtain ⟨mirrored, rfl⟩ : ∃ mirrored, light = -mirrored := ⟨-light, (neg_neg light).symm⟩
    have positive : 0 < mirrored := neg_lt_zero.mp negative
    rw [decode_neg positive, decode_neg (Real.rpow_pos_of_pos positive _),
      Real.rpow_inv_rpow positive.le nonzero]

end PowerLaw

/-! ## The quantizer -/

namespace Pq

/-- What makes the ends of the curve meet full signal and full light. -/
theorem c1_add_c2 : (c1 + c2 : ℝ) = 1 + c3 := by norm_num [c1, c2, c3]

/-- What makes the curve increase. -/
theorem c1_mul_c3_lt : (c1 * c3 : ℝ) < c2 := by norm_num [c1, c2, c3]

theorem constants_pos : (0 : ℝ) < c1 ∧ (0 : ℝ) < c2 ∧ (0 : ℝ) < c3 ∧ (c3 : ℝ) < c2 := by
  norm_num [c1, c2, c3]

theorem m1_pos : (0 : ℝ) < m1 := by norm_num [m1]

theorem m2_pos : (0 : ℝ) < m2 := by norm_num [m2]

/-- Between the two powers of the encoder. -/
noncomputable def compress (p : ℝ) : ℝ := (c1 + c2 * p) / (1 + c3 * p)

/-- Between the two powers of the decoder. -/
noncomputable def expand (q : ℝ) : ℝ := max (q - c1) 0 / (c2 - c3 * q)

theorem encode_of_pos {light : ℝ} (positive : 0 < light) (le : light ≤ 1) :
    encode light = compress (light ^ (m1 : ℝ)) ^ (m2 : ℝ) := by
  simp only [encode, Scalar.literal_zero, Scalar.literal_one, not_le.mpr positive, if_false,
    Scalar.min_real, min_eq_left le, Scalar.pow_real, compress]

theorem decode_of_pos {signal : ℝ} (positive : 0 < signal) (le : signal ≤ 1) :
    decode signal = expand (signal ^ (1 / m2 : ℝ)) ^ (1 / m1 : ℝ) := by
  simp only [decode, Scalar.literal_zero, Scalar.literal_one, not_le.mpr positive, if_false,
    Scalar.min_real, min_eq_left le, Scalar.max_real, Scalar.pow_real, expand]

theorem encode_zero : encode (0 : ℝ) = 0 := by simp [encode]

theorem decode_zero : decode (0 : ℝ) = 0 := by simp [decode]

/-- Full light is compressed to one, and what is above black to more than `c1`. -/
theorem compress_mem {p : ℝ} (unit : p ∈ Set.Ioc 0 1) : compress p ∈ Set.Ioc c1 1 := by
  obtain ⟨c1Pos, c2Pos, c3Pos, c3Less⟩ := constants_pos
  obtain ⟨positive, le⟩ := unit
  have denominator : 0 < 1 + c3 * p := by positivity
  refine ⟨?_, ?_⟩
  · rw [compress, lt_div_iff₀ denominator]
    nlinarith [mul_pos (sub_pos.mpr c1_mul_c3_lt) positive]
  · rw [compress, div_le_one denominator]
    nlinarith [c1_add_c2, mul_le_mul_of_nonneg_left le (sub_pos.mpr c3Less).le]

theorem expand_mem {q : ℝ} (above : q ∈ Set.Ioc c1 1) : expand q ∈ Set.Ioc 0 1 := by
  obtain ⟨c1Pos, c2Pos, c3Pos, c3Less⟩ := constants_pos
  obtain ⟨less, le⟩ := above
  have numerator : 0 < q - c1 := sub_pos.mpr less
  have denominator : 0 < c2 - c3 * q := by nlinarith
  rw [expand, max_eq_left numerator.le]
  refine ⟨div_pos numerator denominator, ?_⟩
  rw [div_le_one denominator]
  nlinarith [c1_add_c2]

theorem expand_compress {p : ℝ} (unit : p ∈ Set.Ioc 0 1) : expand (compress p) = p := by
  obtain ⟨c1Pos, c2Pos, c3Pos, -⟩ := constants_pos
  have positive := unit.1
  have above : 0 ≤ compress p - c1 := (sub_pos.mpr (compress_mem unit).1).le
  have denominator : 1 + c3 * p ≠ 0 := by positivity
  have gap : (c2 - c1 * c3 : ℝ) ≠ 0 := (sub_pos.mpr c1_mul_c3_lt).ne'
  rw [expand, max_eq_left above, compress]
  -- Both parts of the fraction are multiples of the gap, which cancels.
  have numerator : (c1 + c2 * p) / (1 + c3 * p) - c1 = (c2 - c1 * c3) * p / (1 + c3 * p) := by
    field_simp
    ring
  have rest : c2 - c3 * ((c1 + c2 * p) / (1 + c3 * p)) = (c2 - c1 * c3) / (1 + c3 * p) := by
    field_simp
    ring
  rw [numerator, rest, div_div_div_cancel_right₀ denominator, mul_div_cancel_left₀ p gap]

theorem compress_expand {q : ℝ} (above : q ∈ Set.Ioc c1 1) : compress (expand q) = q := by
  obtain ⟨c1Pos, c2Pos, c3Pos, c3Less⟩ := constants_pos
  obtain ⟨less, le⟩ := above
  have denominator : 0 < c2 - c3 * q := by nlinarith
  have gap : (c2 - c1 * c3 : ℝ) ≠ 0 := (sub_pos.mpr c1_mul_c3_lt).ne'
  rw [expand, max_eq_left (sub_pos.mpr less).le, compress]
  have numerator : c1 + c2 * ((q - c1) / (c2 - c3 * q)) = (c2 - c1 * c3) * q / (c2 - c3 * q) := by
    rw [eq_div_iff denominator.ne', add_mul, mul_assoc c2, div_mul_cancel₀ _ denominator.ne']
    ring
  have rest : 1 + c3 * ((q - c1) / (c2 - c3 * q)) = (c2 - c1 * c3) / (c2 - c3 * q) := by
    rw [eq_div_iff denominator.ne', add_mul, mul_assoc c3, div_mul_cancel₀ _ denominator.ne']
    ring
  rw [numerator, rest, div_div_div_cancel_right₀ denominator.ne', mul_div_cancel_left₀ q gap]

/-- Between black and full light the quantizer gives back what it was given. -/
theorem decode_encode {light : ℝ} (unit : light ∈ Set.Icc 0 1) : decode (encode light) = light := by
  obtain ⟨nonneg, le⟩ := unit
  obtain rfl | positive := nonneg.eq_or_lt
  · rw [encode_zero, decode_zero]
  · have power : light ^ (m1 : ℝ) ∈ Set.Ioc 0 1 :=
      ⟨Real.rpow_pos_of_pos positive _, Real.rpow_le_one nonneg le m1_pos.le⟩
    obtain ⟨above, compressed⟩ := compress_mem power
    have compressedPos : 0 < compress (light ^ (m1 : ℝ)) := constants_pos.1.trans above
    -- The powers undo each other from the outside to the inside, as nothing is clipped between.
    rw [encode_of_pos positive le, decode_of_pos (Real.rpow_pos_of_pos compressedPos _)
      (Real.rpow_le_one compressedPos.le compressed m2_pos.le), one_div, one_div,
      Real.rpow_rpow_inv compressedPos.le m2_pos.ne', expand_compress power,
      Real.rpow_rpow_inv nonneg m1_pos.ne']

/-- Signals from where the curve leaves black come back as well. -/
theorem encode_decode {signal : ℝ} (unit : signal ∈ Set.Icc 0 1)
    (enough : signal = 0 ∨ c1 < signal ^ (1 / m2 : ℝ)) : encode (decode signal) = signal := by
  obtain ⟨nonneg, le⟩ := unit
  obtain rfl | positive := nonneg.eq_or_lt
  · rw [decode_zero, encode_zero]
  · have less : c1 < signal ^ (1 / m2 : ℝ) := enough.resolve_left positive.ne'
    have above : signal ^ (1 / m2 : ℝ) ∈ Set.Ioc c1 1 :=
      ⟨less, Real.rpow_le_one nonneg le (one_div_pos.mpr m2_pos).le⟩
    obtain ⟨expandedPos, expanded⟩ := expand_mem above
    rw [decode_of_pos positive le, encode_of_pos (Real.rpow_pos_of_pos expandedPos _)
      (Real.rpow_le_one expandedPos.le expanded (one_div_pos.mpr m1_pos).le), one_div (m1 : ℝ),
      Real.rpow_inv_rpow expandedPos.le m1_pos.ne', compress_expand above, one_div,
      Real.rpow_inv_rpow nonneg m2_pos.ne']

end Pq

/-! ## The curve with a toe -/

namespace Srgb

inductive Segment
  | toe
  | power

namespace Segment

noncomputable def encode : Segment → ℝ → ℝ
  | toe, light => light * 12.92
  | power, light => 1.055 * light ^ (1 / 2.4 : ℝ) - 0.055

noncomputable def decode : Segment → ℝ → ℝ
  | toe, signal => signal / 12.92
  | power, signal => ((signal + 0.055) / 1.055) ^ (2.4 : ℝ)

theorem decode_encode {segment : Segment} {light : ℝ} (nonneg : segment = power → 0 ≤ light) :
    segment.decode (segment.encode light) = light := by
  cases segment with
  | toe => exact mul_div_cancel_right₀ light (by norm_num)
  | power =>
    rw [encode, decode, sub_add_cancel, mul_div_cancel_left₀ _ (by norm_num), one_div,
      Real.rpow_inv_rpow (nonneg rfl) (by norm_num)]

end Segment

noncomputable def encoderSegment (light : ℝ) : Segment :=
  if light ≤ 0.0031308 then .toe else .power

noncomputable def decoderSegment (signal : ℝ) : Segment :=
  if signal ≤ 0.04045 then .toe else .power

theorem encode_eq (light : ℝ) : encode light = (encoderSegment light).encode light := by
  unfold encode encoderSegment
  split
  · rfl
  · rw [Scalar.literal_one]
    rfl

theorem decode_eq (signal : ℝ) : decode signal = (decoderSegment signal).decode signal := by
  unfold decode decoderSegment
  split <;> rfl

theorem decode_encode {light : ℝ} (same : decoderSegment (encode light) = encoderSegment light) :
    decode (encode light) = light := by
  rw [decode_eq, same, encode_eq]
  refine Segment.decode_encode fun power => ?_
  -- The power is chosen for bright light only, so its base has no sign.
  unfold encoderSegment at power
  split at power
  · cases power
  · rename_i bright
    exact le_trans (by norm_num) (not_le.mp bright).le

end Srgb

/-! ## The curve with a logarithm -/

namespace Hlg

inductive Segment
  | black
  | root
  | logarithm

namespace Segment

noncomputable def encode : Segment → ℝ → ℝ
  | black, _ => 0
  | root, light => √(3 * light)
  | logarithm, light => a * Real.log (12 * light - b) + c

noncomputable def decode : Segment → ℝ → ℝ
  | black, _ => 0
  | root, signal => signal * signal / 3
  | logarithm, signal => (Real.exp ((signal - c) / a) + b) / 12

/-- The light that a segment is meant for. -/
def Covers : Segment → ℝ → Prop
  | black, light => light = 0
  | root, light => 0 ≤ light
  | logarithm, light => b < 12 * light

theorem decode_encode {segment : Segment} {light : ℝ} (covers : segment.Covers light) :
    segment.decode (segment.encode light) = light := by
  cases segment with
  | black => exact covers.symm
  | root =>
    have nonneg : 0 ≤ 3 * light := mul_nonneg (by norm_num) covers
    rw [encode, decode, Real.mul_self_sqrt nonneg, mul_div_cancel_left₀ light (by norm_num)]
  | logarithm =>
    have positive : 0 < 12 * light - b := sub_pos.mpr covers
    have nonzero : (a : ℝ) ≠ 0 := by norm_num [a]
    rw [encode, decode, add_sub_cancel_right, mul_div_cancel_left₀ _ nonzero,
      Real.exp_log positive, sub_add_cancel, mul_div_cancel_left₀ light (by norm_num)]

end Segment

noncomputable def encoderSegment (light : ℝ) : Segment :=
  if light ≤ 0 then .black else if light ≤ 1 / 12 then .root else .logarithm

noncomputable def decoderSegment (signal : ℝ) : Segment :=
  if signal ≤ 0 then .black else if signal ≤ 0.5 then .root else .logarithm

theorem encode_eq (light : ℝ) : encode light = (encoderSegment light).encode light := by
  unfold encode encoderSegment
  rw [Scalar.literal_zero, Scalar.literal_one]
  split
  · rfl
  · split <;> rfl

theorem decode_eq (signal : ℝ) : decode signal = (decoderSegment signal).decode signal := by
  unfold decode decoderSegment
  rw [Scalar.literal_zero]
  split
  · rfl
  · split <;> rfl

theorem covers_encoderSegment {light : ℝ} (nonneg : 0 ≤ light) :
    (encoderSegment light).Covers light := by
  unfold encoderSegment
  split
  · rename_i dark
    exact le_antisymm dark nonneg
  · split
    · exact nonneg
    · rename_i bright
      have less : (b : ℝ) < 1 := by norm_num [b]
      have more : 1 < 12 * light := by linarith
      exact less.trans more

theorem decode_encode {light : ℝ} (nonneg : 0 ≤ light)
    (same : decoderSegment (encode light) = encoderSegment light) :
    decode (encode light) = light := by
  rw [decode_eq, same, encode_eq]
  exact Segment.decode_encode (covers_encoderSegment nonneg)

end Hlg

/-! ## Transfer functions -/

namespace TransferFunction

variable {f : TransferFunction ℝ}

/-- Where a luminance lies in the range: `0` at its lower end and `1` at its upper end. -/
noncomputable def relative (f : TransferFunction ℝ) (nits : ℝ) : ℝ :=
  (nits - f.min) / (f.max - f.min)

theorem relative_mem (increasing : f.IsIncreasing) {nits : ℝ}
    (within : nits ∈ Set.Icc f.min f.max) : f.relative nits ∈ Set.Icc 0 1 := by
  have span : 0 < f.max - f.min := sub_pos.mpr increasing
  exact ⟨div_nonneg (sub_nonneg.mpr within.1) span.le,
    (div_le_one span).mpr (sub_le_sub_right within.2 f.min)⟩

/-- The range maps luminances to light and back without loss. -/
theorem decode_encode_of_curve (increasing : f.IsIncreasing) {nits : ℝ}
    (restores : f.curve.decode (f.curve.encode (f.relative nits)) = f.relative nits) :
    f.decode (f.encode nits) = nits := by
  have span : f.max - f.min ≠ 0 := (sub_pos.mpr increasing).ne'
  calc f.decode (f.encode nits)
    _ = f.relative nits * (f.max - f.min) + f.min := by rw [← restores]; rfl
    _ = nits := by rw [relative, div_mul_cancel₀ _ span, sub_add_cancel]

theorem encode_decode_of_curve (increasing : f.IsIncreasing) {signal : ℝ}
    (restores : f.curve.encode (f.curve.decode signal) = signal) :
    f.encode (f.decode signal) = signal := by
  have span : f.max - f.min ≠ 0 := (sub_pos.mpr increasing).ne'
  rw [encode, decode, add_sub_cancel_right, mul_div_cancel_right₀ _ span, restores]

/-- Decoding undoes encoding: for the linear curve and the power law everywhere, for the quantizer
in its range, and for the curves made of segments wherever both sides use the same one.  The
quantizer also undoes decoding, for the signals above those that all stand for black. -/
theorem decode_encode_laws (f : TransferFunction ℝ) (increasing : f.min < f.max) :
    (f.curve = .linear ∨ f.curve = .gamma22 → ∀ nits, f.decode (f.encode nits) = nits) ∧
    (f.curve = .pq → ∀ nits ∈ Set.Icc f.min f.max, f.decode (f.encode nits) = nits) ∧
    (f.curve = .srgb → ∀ nits,
      Srgb.decoderSegment (f.encode nits) = Srgb.encoderSegment (f.relative nits) →
      f.decode (f.encode nits) = nits) ∧
    (f.curve = .hlg → ∀ nits, f.min ≤ nits →
      Hlg.decoderSegment (f.encode nits) = Hlg.encoderSegment (f.relative nits) →
      f.decode (f.encode nits) = nits) ∧
    (f.curve = .pq → ∀ signal ∈ Set.Icc (0 : ℝ) 1,
      signal = 0 ∨ Pq.c1 < signal ^ (1 / Pq.m2 : ℝ) → f.encode (f.decode signal) = signal) := by
  have increasing : f.IsIncreasing := increasing
  refine ⟨?_, ?_, ?_, ?_, ?_⟩
  · rintro (linear | gamma) nits <;> refine decode_encode_of_curve increasing ?_
    · rw [linear]
      rfl
    · rw [gamma]
      exact PowerLaw.decode_encode (by norm_num [PowerLaw.displayExponent]) _
  · intro pq nits within
    refine decode_encode_of_curve increasing ?_
    rw [pq]
    exact Pq.decode_encode (relative_mem increasing within)
  · intro srgb nits same
    refine decode_encode_of_curve increasing ?_
    rw [encode, srgb] at same
    rw [srgb]
    exact Srgb.decode_encode same
  · intro hlg nits le same
    have nonneg : 0 ≤ f.relative nits :=
      div_nonneg (sub_nonneg.mpr le) (sub_pos.mpr increasing).le
    refine decode_encode_of_curve increasing ?_
    rw [encode, hlg] at same
    rw [hlg]
    exact Hlg.decode_encode nonneg same
  · intro pq signal unit enough
    refine encode_decode_of_curve increasing ?_
    rw [pq]
    exact Pq.encode_decode unit enough

/-- White on the quantizer, light outside of the gamut on the toe, and a shadow on the root. -/
theorem decode_encode_laws_shadows :
    let absolute : TransferFunction ℝ := ⟨.pq, 0, 10000⟩
    let display : TransferFunction ℝ := ⟨.srgb, 0.2, 80⟩
    let broadcast : TransferFunction ℝ := ⟨.hlg, 0, 1000⟩
    absolute.decode (absolute.encode 203) = 203 ∧ absolute.encode (absolute.decode 1) = 1 ∧
      display.decode (display.encode (-5)) = -5 ∧ broadcast.decode (broadcast.encode 30) = 30 := by
  intro absolute display broadcast
  obtain ⟨-, inRange, -, -, above⟩ := decode_encode_laws absolute (by norm_num [absolute])
  obtain ⟨-, -, onToe, -, -⟩ := decode_encode_laws display (by norm_num [display])
  obtain ⟨-, -, -, onRoot, -⟩ := decode_encode_laws broadcast (by norm_num [broadcast])
  refine ⟨inRange rfl 203 ?_, above rfl 1 ?_ (.inr ?_), onToe rfl (-5) ?_, onRoot rfl 30 ?_ ?_⟩
  · constructor <;> norm_num [absolute]
  · norm_num
  · rw [Real.one_rpow]
    norm_num [Pq.c1]
  · have light : display.relative (-5) = -52 / 798 := by norm_num [display, relative]
    have dark : Srgb.encoderSegment (-52 / 798) = .toe := if_pos (by norm_num)
    have signal : display.encode (-5) = -52 / 798 * 12.92 := by
      show Srgb.encode (display.relative (-5)) = _
      rw [Srgb.encode_eq, light, dark]
      rfl
    rw [light, dark, signal]
    exact if_pos (by norm_num)
  · norm_num [broadcast]
  · have light : broadcast.relative 30 = 0.03 := by norm_num [broadcast, relative]
    have dim : Hlg.encoderSegment 0.03 = .root := by norm_num [Hlg.encoderSegment]
    have signal : broadcast.encode 30 = 0.3 := by
      show Hlg.encode (broadcast.relative 30) = _
      rw [Hlg.encode_eq, light, dim]
      exact (Real.sqrt_eq_iff_mul_self_eq (by norm_num) (by norm_num)).mpr (by norm_num)
    rw [light, dim, signal]
    norm_num [Hlg.decoderSegment]

end TransferFunction

end DisplayColor
