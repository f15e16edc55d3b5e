import DisplayColor.Proofs.Lut.Positions
import DisplayColor.Proofs.Lut.Cells
import DisplayColor.Lut.Curves

/-! # Lookups in curve tables

Whatever the scalars are, a lookup reads two entries of the table: the indices are cut off at the
last entry.  In exact arithmetic a curve table is the piecewise linear function through its entries,
which stand at evenly spaced knots over the domain, and constant outside.

The split of a position into an entry and a rest is only one way to read it: at a knot both
neighbouring pieces give the entry.  So a piece is evaluated wherever the position lies in it, and
not just where the split chooses it. -/

namespace DisplayColor.CurveLut

section Made

variable {α : Type} [Scalar α]

/-- The tables that can be made, over any domain that is accepted for them. -/
inductive IsMade : CurveLut α → Prop
  | identity (size : Nat) : IsMade (identity size)
  | power (size : Nat) (exponent : α) : IsMade (power size exponent)
  | ofFunction (size : Nat) (f : α → Vec3 α) : IsMade (ofFunction size f)
  | ofMono {curve : Array α} {lut : CurveLut α} : ofMono curve = .ok lut → IsMade lut
  | ofChannels {red green blue : Array α} {lut : CurveLut α} :
    ofChannels red green blue = .ok lut → IsMade lut
  | ofEntries {entries : Array (Vec3 α)} {lut : CurveLut α} :
    ofEntries entries = .ok lut → IsMade lut
  | withDomain {lut moved : CurveLut α} {min max : α} :
    IsMade lut → lut.withDomain min max = .ok moved → IsMade moved

theorem eq_of_ofEntries {entries : Array (Vec3 α)} {lut : CurveLut α}
    (ok : ofEntries entries = .ok lut) :
    lut.entries = entries ∧ lut.domainMin = 0 ∧ lut.domainMax = 1 := by
  unfold ofEntries at ok
  split at ok
  · split at ok
    · cases ok
    · cases ok
      exact ⟨rfl, rfl, rfl⟩
  · cases ok

theorem domain_of_ofChannels {red green blue : Array α} {lut : CurveLut α}
    (ok : ofChannels red green blue = .ok lut) : lut.domainMin = 0 ∧ lut.domainMax = 1 := by
  unfold ofChannels at ok
  split at ok
  · cases ok
  · exact (eq_of_ofEntries ok).2

theorem domain_of_withDomain {lut moved : CurveLut α} {min max : α}
    (ok : lut.withDomain min max = .ok moved) : moved.domainMin < moved.domainMax := by
  unfold withDomain at ok
  split at ok
  · rename_i accepted
    cases ok
    exact accepted.2.2
  · cases ok

end Made

/-- No real number is refused. -/
theorem ofEntries_real {entries : Array (Vec3 ℝ)} (enough : 2 ≤ entries.size) :
    ofEntries entries = .ok ⟨entries, 0, 1, enough⟩ := by
  have finite : entries.findIdx? (fun e => !e.isFinite) = none := by
    simp [Array.findIdx?_eq_none_iff, Vec3.isFinite]
  simp [ofEntries, enough, finite]

theorem IsMade.domain {lut : CurveLut ℝ} (made : lut.IsMade) : lut.domainMin < lut.domainMax := by
  cases made with
  | identity | power | ofFunction => simp [CurveLut.identity, CurveLut.power, CurveLut.ofFunction]
  | ofMono ok | ofEntries ok =>
    obtain ⟨-, min, max⟩ := eq_of_ofEntries ok
    simp [min, max]
  | ofChannels ok =>
    obtain ⟨min, max⟩ := domain_of_ofChannels ok
    simp [min, max]
  | withDomain _ ok => exact domain_of_withDomain ok

/-! ## Reads -/

section Reads

variable {α : Type}

def first (lut : CurveLut α) : Fin lut.entries.size :=
  ⟨0, two_pos.trans_le lut.two_le_size⟩

def last (lut : CurveLut α) : Fin lut.entries.size :=
  ⟨lut.size - 1, Nat.sub_lt lut.first.pos one_pos⟩

theorem min_last_lt (lut : CurveLut α) (i : ℕ) : min i (lut.size - 1) < lut.entries.size :=
  (min_le_right _ _).trans_lt lut.last.isLt

/-- The entry at an index, or the last entry if the index lies beyond it. -/
def entryOrLast (lut : CurveLut α) (i : ℕ) : Vec3 α :=
  have inside := lut.min_last_lt i
  lut.entries[min i (lut.size - 1)]

/-- An index that is cut off at the last entry is not beyond the entries. -/
theorem entry_min (lut : CurveLut α) (i : ℕ) :
    lut.entry (min i (lut.size - 1)) = .ok (lut.entryOrLast i) := by
  simp only [entry, Array.getElem?_eq_getElem (lut.min_last_lt i), entryOrLast]

theorem entryOrLast_eq (lut : CurveLut α) (i : Fin lut.entries.size) :
    lut.entryOrLast i = lut.entries[i] := by
  have inside : min (i : ℕ) (lut.size - 1) = i := min_eq_left (Nat.le_sub_one_of_lt i.isLt)
  simp only [entryOrLast, inside, Fin.getElem_fin]

variable [Scalar α]

/-- The line through the entry at an index and the next one, which beyond the last is the last. -/
def piece (lut : CurveLut α) (channel : Vec3 α → α) (i : ℕ) (position : α) : α :=
  Scalar.lerp (channel (lut.entryOrLast i)) (channel (lut.entryOrLast (i + 1)))
    (position - Scalar.ofNat i)

/-- The piece that is chosen for a value, at the position of the value. -/
def curve (lut : CurveLut α) (channel : Vec3 α → α) (value : α) : α :=
  lut.piece channel (min (Scalar.wholePart (lut.position value)) (lut.size - 1))
    (lut.position value)

theorem sample_eq (lut : CurveLut α) (channel : Vec3 α → α) (value : α) :
    lut.sample channel value = .ok (lut.curve channel value) := by
  have below : lut.entryOrLast (min (Scalar.wholePart (lut.position value)) (lut.size - 1)) =
      lut.entryOrLast (Scalar.wholePart (lut.position value)) := by
    simp only [entryOrLast, min_assoc, min_self]
  simp only [sample, entry_min, curve, piece, below]
  rfl

/-- A lookup is never refused: each of its reads is inside the table. -/
theorem apply_eq (lut : CurveLut α) (v : Vec3 α) :
    lut.apply v = .ok (Vec3.ofChannels fun channel => lut.curve channel (channel v)) := by
  simp only [apply, sample_eq]
  rfl

end Reads

/-! ## Knots -/

variable {lut : CurveLut ℝ}

/-- The input at which the entry at an index stands. -/
noncomputable def knot (lut : CurveLut ℝ) (i : ℕ) : ℝ :=
  lut.domainMin + (lut.domainMax - lut.domainMin) * i / (lut.size - 1)

theorem last_pos (lut : CurveLut ℝ) : (0 : ℝ) < lut.last := by
  have atLeast := lut.two_le_size
  exact_mod_cast (by simp only [last, size]; omega : 0 < (lut.last : ℕ))

theorem last_eq (lut : CurveLut ℝ) : (lut.last : ℝ) = lut.size - 1 := by
  have atLeast : 1 ≤ lut.size := one_le_two.trans lut.two_le_size
  simp only [last, Nat.cast_sub atLeast, Nat.cast_one]

theorem last_lt_wordCount (word : lut.size ≤ wordCount) : (lut.last : ℕ) < wordCount :=
  lut.last.isLt.trans_le word

/-! ## Positions -/

theorem position_eq (lut : CurveLut ℝ) (value : ℝ) : lut.position value =
    Scalar.saturate ((value - lut.domainMin) / (lut.domainMax - lut.domainMin)) * lut.last := rfl

theorem position_mem (lut : CurveLut ℝ) (value : ℝ) :
    lut.position value ∈ Set.Icc 0 (lut.last : ℝ) := by
  rw [position_eq]
  exact Scalar.saturate_mul_mem _ _

theorem monotone_position (increasing : lut.domainMin < lut.domainMax) :
    Monotone lut.position := by
  intro smaller larger le
  have width : 0 < lut.domainMax - lut.domainMin := sub_pos.mpr increasing
  rw [position_eq, position_eq]
  refine mul_le_mul_of_nonneg_right (Scalar.monotone_saturate ?_) lut.last_pos.le
  gcongr

theorem position_knot (increasing : lut.domainMin < lut.domainMax) (i : Fin lut.entries.size) :
    lut.position (lut.knot i) = i := by
  have le : ((i : ℕ) : ℝ) ≤ lut.last := Nat.cast_le.mpr (Nat.le_sub_one_of_lt i.isLt)
  have width : lut.domainMax - lut.domainMin ≠ 0 := (sub_pos.mpr increasing).ne'
  have way : (lut.knot i - lut.domainMin) / (lut.domainMax - lut.domainMin) = i / lut.last := by
    rw [knot, ← last_eq, add_sub_cancel_left, mul_div_assoc, mul_div_cancel_left₀ _ width]
  have unit : (i / lut.last : ℝ) ∈ Set.Icc 0 1 :=
    ⟨div_nonneg (Nat.cast_nonneg _) lut.last_pos.le, (div_le_one lut.last_pos).mpr le⟩
  rw [position_eq, way, Scalar.saturate_of_mem unit, div_mul_cancel₀ _ lut.last_pos.ne']

theorem knot_first (lut : CurveLut ℝ) : lut.knot lut.first = lut.domainMin := by
  simp [knot, first]

theorem knot_last (lut : CurveLut ℝ) : lut.knot lut.last = lut.domainMax := by
  rw [knot, ← last_eq, mul_div_cancel_right₀ _ lut.last_pos.ne', add_sub_cancel]

theorem position_of_le_domainMin (increasing : lut.domainMin < lut.domainMax) {value : ℝ}
    (le : value ≤ lut.domainMin) : lut.position value = 0 := by
  refine le_antisymm ?_ (lut.position_mem value).1
  calc lut.position value
    _ ≤ lut.position (lut.knot lut.first) :=
      monotone_position increasing (le.trans_eq lut.knot_first.symm)
    _ = 0 := by
      rw [position_knot increasing]
      exact Nat.cast_zero

theorem position_of_domainMax_le (increasing : lut.domainMin < lut.domainMax) {value : ℝ}
    (le : lut.domainMax ≤ value) : lut.position value = lut.last := by
  refine le_antisymm (lut.position_mem value).2 ?_
  calc (lut.last : ℝ)
    _ = lut.position (lut.knot lut.last) := (position_knot increasing lut.last).symm
    _ ≤ lut.position value := monotone_position increasing (lut.knot_last.trans_le le)

/-! ## Pieces -/

variable {channel : Vec3 ℝ → ℝ}

theorem piece_real (lut : CurveLut ℝ) (channel : Vec3 ℝ → ℝ) (i : ℕ) (position : ℝ) :
    lut.piece channel i position =
      Scalar.lerp (channel (lut.entryOrLast i)) (channel (lut.entryOrLast (i + 1)))
        (position - i) := rfl

theorem piece_self (lut : CurveLut ℝ) (channel : Vec3 ℝ → ℝ) (i : ℕ) :
    lut.piece channel i i = channel (lut.entryOrLast i) := by
  rw [piece_real, sub_self, Scalar.lerp_zero]

theorem piece_next (lut : CurveLut ℝ) (channel : Vec3 ℝ → ℝ) (i : ℕ) :
    lut.piece channel i (i + 1) = channel (lut.entryOrLast (i + 1)) := by
  rw [piece_real, add_sub_cancel_left, Scalar.lerp_one]

theorem piece_mem (lut : CurveLut ℝ) (channel : Vec3 ℝ → ℝ) {i : ℕ} {position : ℝ}
    (within : position ∈ Set.Icc (i : ℝ) (i + 1)) : lut.piece channel i position ∈
      Set.uIcc (channel (lut.entryOrLast i)) (channel (lut.entryOrLast (i + 1))) := by
  rw [piece_real]
  exact Scalar.lerp_mem_uIcc _ _ ⟨sub_nonneg.mpr within.1, by linarith [within.2]⟩

theorem floor_mem {position : ℝ} (nonneg : 0 ≤ position) :
    position ∈ Set.Icc (⌊position⌋₊ : ℝ) (⌊position⌋₊ + 1) :=
  ⟨Nat.floor_le nonneg, (Nat.lt_floor_add_one position).le⟩

/-- Any piece that holds a position may be evaluated there: two of them meet in an entry. -/
theorem piece_floor {i : ℕ} {position : ℝ} (within : position ∈ Set.Icc (i : ℝ) (i + 1)) :
    lut.piece channel ⌊position⌋₊ position = lut.piece channel i position := by
  obtain inside | rfl : position < i + 1 ∨ position = i + 1 := within.2.lt_or_eq
  · have floor : ⌊position⌋₊ = i :=
      (Nat.floor_eq_iff (i.cast_nonneg.trans within.1)).mpr ⟨within.1, inside⟩
    rw [floor]
  · have floor : ⌊(i : ℝ) + 1⌋₊ = i + 1 := by exact_mod_cast Nat.floor_natCast (i + 1)
    rw [floor, piece_next]
    exact_mod_cast lut.piece_self channel (i + 1)

theorem curve_eq_piece (word : lut.size ≤ wordCount) (channel : Vec3 ℝ → ℝ) (value : ℝ) :
    lut.curve channel value =
      lut.piece channel ⌊lut.position value⌋₊ (lut.position value) := by
  have within := lut.position_mem value
  have floor : ⌊lut.position value⌋₊ ≤ lut.size - 1 := Nat.floor_le_of_le within.2
  rw [curve, Scalar.wholePart_eq_floor within.2 (last_lt_wordCount word), min_eq_left floor]

/-- A lookup is any piece that holds the position. -/
theorem curve_of_mem (word : lut.size ≤ wordCount) {i : ℕ} {value : ℝ}
    (within : lut.position value ∈ Set.Icc (i : ℝ) (i + 1)) :
    lut.curve channel value = lut.piece channel i (lut.position value) := by
  rw [curve_eq_piece word, piece_floor within]

theorem curve_of_position_eq (word : lut.size ≤ wordCount) {i : Fin lut.entries.size} {value : ℝ}
    (equal : lut.position value = i) : lut.curve channel value = channel lut.entries[i] := by
  have within : lut.position value ∈ Set.Icc ((i : ℕ) : ℝ) ((i : ℕ) + 1) := by
    rw [equal]
    exact ⟨le_refl _, (lt_add_one _).le⟩
  rw [curve_of_mem word within, equal, piece_self, entryOrLast_eq]

/-! ## Growing tables -/

theorem monotone_entryOrLast
    (growing : Monotone fun i : Fin lut.entries.size => channel lut.entries[i]) :
    Monotone fun i : ℕ => channel (lut.entryOrLast i) := by
  intro i j le
  have ordered : (⟨_, lut.min_last_lt i⟩ : Fin lut.entries.size) ≤ ⟨_, lut.min_last_lt j⟩ :=
    min_le_min_right (lut.size - 1) le
  exact growing ordered

/-- Along one piece a growing table grows; from one piece to a later one it grows over the entries
between them. -/
theorem piece_floor_le (growing : Monotone fun i : ℕ => channel (lut.entryOrLast i)) {p q : ℝ}
    (nonneg : 0 ≤ p) (le : p ≤ q) :
    lut.piece channel ⌊p⌋₊ p ≤ lut.piece channel ⌊q⌋₊ q := by
  have step (i : ℕ) : channel (lut.entryOrLast i) ≤ channel (lut.entryOrLast (i + 1)) :=
    growing i.le_succ
  obtain same | earlier : ⌊p⌋₊ = ⌊q⌋₊ ∨ ⌊p⌋₊ < ⌊q⌋₊ := (Nat.floor_mono le).eq_or_lt
  · have slope := sub_nonneg.mpr (step ⌊q⌋₊)
    rw [same, piece_real, piece_real, Scalar.lerp_eq, Scalar.lerp_eq]
    gcongr
  · have fromBelow := lut.piece_mem channel (floor_mem nonneg)
    have toAbove := lut.piece_mem channel (floor_mem (nonneg.trans le))
    rw [Set.uIcc_of_le (step _)] at fromBelow toAbove
    calc lut.piece channel ⌊p⌋₊ p
      _ ≤ channel (lut.entryOrLast (⌊p⌋₊ + 1)) := fromBelow.2
      _ ≤ channel (lut.entryOrLast ⌊q⌋₊) := growing earlier
      _ ≤ lut.piece channel ⌊q⌋₊ q := toAbove.1

theorem monotone_curve (increasing : lut.domainMin < lut.domainMax)
    (word : lut.size ≤ wordCount)
    (growing : Monotone fun i : Fin lut.entries.size => channel lut.entries[i]) :
    Monotone (lut.curve channel) := by
  intro smaller larger le
  rw [curve_eq_piece word, curve_eq_piece word]
  exact piece_floor_le (monotone_entryOrLast growing) (lut.position_mem smaller).1
    (monotone_position increasing le)

/-! ## The lookup -/

/-- The output of one channel is that of the piecewise linear function through the entries. -/
structure IsInterpolated (lut : CurveLut ℝ) (channel : Vec3 ℝ → ℝ) (value output : ℝ) : Prop where
  /-- Two neighbouring entries are mixed, or the last one alone. -/
  neighbours : ∃ below above : Fin lut.entries.size, (above : ℕ) ≤ below + 1 ∧
    lut.position value ∈ Set.Icc (below : ℝ) above ∧
    output = Scalar.lerp (channel lut.entries[below]) (channel lut.entries[above])
      (lut.position value - (below : ℕ))
  knots : ∀ i : Fin lut.entries.size, value = lut.knot i → output = channel lut.entries[i]
  belowDomain : value ≤ lut.domainMin → output = channel lut.entries[lut.first]
  aboveDomain : lut.domainMax ≤ value → output = channel lut.entries[lut.last]
  between : ∀ (i : ℕ) (inside : i + 1 < lut.entries.size),
    value ∈ Set.Icc (lut.knot i) (lut.knot (i + 1)) →
      output ∈ Set.uIcc (channel lut.entries[i]) (channel lut.entries[i + 1])

theorem curve_eq_lerp (word : lut.size ≤ wordCount) (channel : Vec3 ℝ → ℝ) (value : ℝ) :
    ∃ below above : Fin lut.entries.size, (above : ℕ) ≤ below + 1 ∧
      lut.position value ∈ Set.Icc (below : ℝ) above ∧
      lut.curve channel value = Scalar.lerp (channel lut.entries[below])
        (channel lut.entries[above]) (lut.position value - (below : ℕ)) := by
  have within := lut.position_mem value
  obtain inner | equal : lut.position value < lut.last ∨ lut.position value = lut.last :=
    within.2.lt_or_eq
  · have floor : ⌊lut.position value⌋₊ < (lut.last : ℕ) := (Nat.floor_lt within.1).mpr inner
    have next : ⌊lut.position value⌋₊ + 1 < lut.entries.size :=
      (Nat.succ_le_of_lt floor).trans_lt lut.last.isLt
    refine ⟨⟨_, Nat.lt_of_succ_lt next⟩, ⟨_, next⟩, le_refl _, ?_, ?_⟩
    · exact_mod_cast floor_mem within.1
    · rw [curve_eq_piece word, ← entryOrLast_eq, ← entryOrLast_eq]
      rfl
  · refine ⟨lut.last, lut.last, Nat.le_succ _, ⟨equal.ge, equal.le⟩, ?_⟩
    rw [curve_of_position_eq word equal, equal, sub_self, Scalar.lerp_zero]

theorem curve_mem (increasing : lut.domainMin < lut.domainMax) (word : lut.size ≤ wordCount)
    (channel : Vec3 ℝ → ℝ) {i : ℕ} (inside : i + 1 < lut.entries.size) {value : ℝ}
    (between : value ∈ Set.Icc (lut.knot i) (lut.knot (i + 1))) :
    lut.curve channel value ∈ Set.uIcc (channel lut.entries[i]) (channel lut.entries[i + 1]) := by
  have lower := monotone_position increasing between.1
  have upper := monotone_position increasing between.2
  rw [position_knot increasing ⟨i, Nat.lt_of_succ_lt inside⟩] at lower
  rw [position_knot increasing ⟨i + 1, inside⟩] at upper
  have within : lut.position value ∈ Set.Icc (i : ℝ) (i + 1) := ⟨lower, by exact_mod_cast upper⟩
  have mem := lut.piece_mem channel within
  rw [← curve_of_mem word within] at mem
  rwa [lut.entryOrLast_eq ⟨i, Nat.lt_of_succ_lt inside⟩,
    lut.entryOrLast_eq ⟨i + 1, inside⟩] at mem

theorem isInterpolated_curve (increasing : lut.domainMin < lut.domainMax)
    (word : lut.size ≤ wordCount) (channel : Vec3 ℝ → ℝ) (value : ℝ) :
    lut.IsInterpolated channel value (lut.curve channel value) where
  neighbours := curve_eq_lerp word channel value
  knots i equal := by
    rw [equal]
    exact curve_of_position_eq word (position_knot increasing i)
  belowDomain le := by
    refine curve_of_position_eq word ?_
    rw [position_of_le_domainMin increasing le]
    exact Nat.cast_zero.symm
  aboveDomain ge := curve_of_position_eq word (position_of_domainMax_le increasing ge)
  between _ inside := curve_mem increasing word channel inside

/-- Every table that can be made is read inside its entries and interpolates them in each channel,
and a channel grows if its entries do. -/
theorem apply_piecewise (made : lut.IsMade) (word : lut.size ≤ wordCount) :
    (∀ v, ∃ c, lut.apply v = .ok c ∧ ∀ channel ∈ Vec3.channels,
      lut.IsInterpolated channel (channel v) (channel c)) ∧
    (∀ channel ∈ Vec3.channels,
      (Monotone fun i : Fin lut.entries.size => channel lut.entries[i]) →
      ∀ v w c d, lut.apply v = .ok c → lut.apply w = .ok d →
        channel v ≤ channel w → channel c ≤ channel d) := by
  constructor
  · intro v
    refine ⟨_, apply_eq lut v, fun channel mem => ?_⟩
    rw [Vec3.channel_ofChannels _ channel mem]
    exact isInterpolated_curve made.domain word channel (channel v)
  · intro channel mem growing v w c d first second le
    rw [apply_eq] at first second
    cases first
    cases second
    rw [Vec3.channel_ofChannels _ channel mem, Vec3.channel_ofChannels _ channel mem]
    exact monotone_curve made.domain word growing le

/-- A table with a different curve in each channel, over a domain that is set after it was made. -/
theorem apply_piecewise_bent :
    let lut : CurveLut ℝ := ⟨#[⟨0, 1, 5⟩, ⟨0.25, 0.5, 5⟩, ⟨1, 0, 2⟩], 0, 2, by simp⟩
    (lut.IsMade ∧ lut.size ≤ wordCount ∧
      Monotone fun i : Fin lut.entries.size => Vec3.x lut.entries[i]) ∧
    lut.apply ⟨1, -5, 7⟩ = .ok ⟨0.25, 1, 2⟩ ∧
    (∃ c, lut.apply ⟨1.5, 0, 0⟩ = .ok c ∧ c.x ∈ Set.Icc 0.25 1) ∧
    ∀ v w c d, lut.apply v = .ok c → lut.apply w = .ok d → v.x ≤ w.x → c.x ≤ d.x := by
  intro lut
  have made : lut.IsMade := by
    have moved : CurveLut.withDomain ⟨lut.entries, 0, 1, lut.two_le_size⟩ 0 2 = .ok lut := by
      have accepted : (0 : ℝ) < 2 := two_pos
      simp [withDomain, accepted, lut]
    exact .withDomain (.ofEntries (ofEntries_real lut.two_le_size)) moved
  have growing : Monotone fun i : Fin lut.entries.size => Vec3.x lut.entries[i] := by
    refine Fin.monotone_iff_le_succ.mpr fun i => ?_
    fin_cases i <;> norm_num [lut]
  have word : lut.size ≤ wordCount := by decide
  have knot (i : ℕ) : lut.knot i = i := by
    norm_num [CurveLut.knot, size, lut]
  obtain ⟨lookup, grows⟩ := apply_piecewise made word
  refine ⟨⟨made, word, growing⟩, ?_, ?_, grows Vec3.x (by simp [Vec3.channels]) growing⟩
  · obtain ⟨⟨x, y, z⟩, ok, interpolated⟩ := lookup ⟨1, -5, 7⟩
    obtain ⟨red, green, blue⟩ := Vec3.forall_channels.mp interpolated
    have x_eq : x = 0.25 := red.knots ⟨1, by decide⟩ (by rw [knot, Nat.cast_one])
    have y_eq : y = 1 := green.belowDomain (by norm_num [lut])
    have z_eq : z = 2 := blue.aboveDomain (by norm_num [lut])
    rw [ok, x_eq, y_eq, z_eq]
  · obtain ⟨c, ok, interpolated⟩ := lookup ⟨1.5, 0, 0⟩
    have mem := (Vec3.forall_channels.mp interpolated).1.between 1 (by decide)
      (by norm_num [knot])
    have ordered : (0.25 : ℝ) ≤ 1 := by norm_num
    exact ⟨c, ok, (Set.uIcc_of_le ordered).subset mem⟩

end DisplayColor.CurveLut
