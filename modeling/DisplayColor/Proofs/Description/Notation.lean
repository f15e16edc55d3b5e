import Mathlib
import DisplayColor.Pipeline.Notation
import DisplayColor.Proofs.Fusion.NormalForm

/-! # The grammar of written descriptions

A text is compared with the presets first, as a whole; what is not a preset is split at its first
colon, and each half has its own spellings.  The colorimetry looks past the difference between
hyphens, underscores and full stops, the curve does not, and neither looks at the case of ASCII
letters.

Together this is a small grammar, stated here as a relation between texts and names.  No preset has
a colon, so the two ways to be accepted exclude each other, and nothing that is accepted depends on
the luminances given beside it. -/

namespace DisplayColor

/-! ## Names -/

namespace NamedColorimetry

/-- How a colorimetry may be written, in lower case and with hyphens. -/
def spellings : NamedColorimetry → List String
  | bt709 => ["bt709", "rec709", "srgb"]
  | palM => ["pal-m", "palm"]
  | pal => ["pal"]
  | ntsc => ["ntsc"]
  | film => ["film", "generic-film"]
  | bt2020 => ["bt2020", "rec2020", "bt2100"]
  | cieXyz => ["ciexyz", "xyz"]
  | dciP3 => ["dci-p3", "dcip3"]
  | displayP3 => ["display-p3", "displayp3", "p3"]
  | adobeRgb => ["adobe-rgb", "adobergb"]

def IsWritten (named : NamedColorimetry) (name : String) : Prop :=
  hyphenate ['_', '.'] name.toLower ∈ named.spellings

instance (named : NamedColorimetry) (name : String) : Decidable (named.IsWritten name) :=
  inferInstanceAs (Decidable (_ ∈ _))

variable {named : NamedColorimetry} {name : String}

theorem ofKey?_eq_some_iff {key : String} : ofKey? key = some named ↔ key ∈ named.spellings := by
  constructor
  · intro found
    unfold ofKey? at found
    split at found <;> cases found <;> simp [spellings]
  · intro known
    cases named <;> simp only [spellings, List.mem_cons, List.not_mem_nil, or_false] at known <;>
      rcases known with rfl | rfl | rfl <;> rfl

theorem ofName?_eq_ok_iff : ofName? name = .ok named ↔ named.IsWritten name := by
  rw [IsWritten, ← ofKey?_eq_some_iff, ofName?]
  cases ofKey? (hyphenate ['_', '.'] name.toLower) <;> simp

theorem ofName?_eq_error (unknown : ∀ named : NamedColorimetry, ¬ named.IsWritten name) :
    ofName? name = .error (.colorimetry name) := by
  simp only [IsWritten, ← ofKey?_eq_some_iff] at unknown
  rw [ofName?, Option.eq_none_iff_forall_ne_some.mpr unknown]

theorem isWritten_congr {other : String} (same : other.toLower = name.toLower) :
    named.IsWritten other ↔ named.IsWritten name := by
  rw [IsWritten, IsWritten, same]

end NamedColorimetry

namespace Curve

/-- How a curve may be written, in lower case. -/
def spellings : Curve → List String
  | linear => ["linear"]
  | srgb => ["srgb"]
  | gamma22 => ["gamma22", "gamma2.2"]
  | pq => ["pq", "st2084", "perceptualquantizer"]
  | hlg => ["hlg"]

def IsWritten (curve : Curve) (name : String) : Prop := name.toLower ∈ curve.spellings

instance (curve : Curve) (name : String) : Decidable (curve.IsWritten name) :=
  inferInstanceAs (Decidable (_ ∈ _))

variable {curve : Curve} {name : String}

theorem ofKey?_eq_some_iff {key : String} : ofKey? key = some curve ↔ key ∈ curve.spellings := by
  constructor
  · intro found
    unfold ofKey? at found
    split at found <;> cases found <;> simp [spellings]
  · intro known
    cases curve <;> simp only [spellings, List.mem_cons, List.not_mem_nil, or_false] at known <;>
      rcases known with rfl | rfl | rfl <;> rfl

theorem ofName?_eq_ok_iff : ofName? name = .ok curve ↔ curve.IsWritten name := by
  rw [IsWritten, ← ofKey?_eq_some_iff, ofName?]
  cases ofKey? name.toLower <;> simp

theorem ofName?_eq_error (unknown : ∀ curve : Curve, ¬ curve.IsWritten name) :
    ofName? name = .error (.transferFunction name) := by
  simp only [IsWritten, ← ofKey?_eq_some_iff] at unknown
  rw [ofName?, Option.eq_none_iff_forall_ne_some.mpr unknown]

theorem isWritten_congr {other : String} (same : other.toLower = name.toLower) :
    curve.IsWritten other ↔ curve.IsWritten name := by
  rw [IsWritten, IsWritten, same]

end Curve

namespace Description

/-! ## Presets -/

/-- The presets, in lower case, and what they stand for. -/
def presets : List (String × Names) :=
  [("srgb", ⟨.bt709, .gamma22⟩), ("hdr10", ⟨.bt2020, .pq⟩), ("bt2100-pq", ⟨.bt2020, .pq⟩),
    ("bt2100", ⟨.bt2020, .pq⟩)]

theorem presetNames?_eq_some_iff {key : String} {names : Names} :
    presetNames? key = some names ↔ (key, names) ∈ presets := by
  constructor
  · intro found
    unfold presetNames? at found
    split at found <;> cases found <;> simp [presets]
  · intro known
    simp only [presets, List.mem_cons, List.not_mem_nil, or_false, Prod.mk.injEq] at known
    rcases known with ⟨rfl, rfl⟩ | ⟨rfl, rfl⟩ | ⟨rfl, rfl⟩ | ⟨rfl, rfl⟩ <;> rfl

/-! ## The colon -/

theorem toLower_eq_colon_iff {c : Char} : c.toLower = ':' ↔ c = ':' := by
  constructor
  · intro lower
    unfold Char.toLower at lower
    split at lower
    · rename_i upper
      -- The letters end up behind the colon, which stands before all of them.
      have value := congrArg (fun c => c.val.toNat) lower
      obtain ⟨first, last⟩ := upper
      rw [ge_iff_le, UInt32.le_iff_toNat_le] at first
      rw [UInt32.le_iff_toNat_le] at last
      simp at value first last
      omega
    · exact lower
  · rintro rfl
    rfl

theorem colon_mem_toLower_iff {text : String} : ':' ∈ text.toLower.toList ↔ ':' ∈ text.toList := by
  simp [String.toLower, toLower_eq_colon_iff]

theorem toLower_pair (left right : String) :
    (left ++ ":" ++ right).toLower = left.toLower ++ ":" ++ right.toLower := by
  simp [String.toLower, ← String.toList_inj]

theorem exists_pair_of_colon {text : String} (colon : ':' ∈ text.toList) :
    ∃ left right : String, text = left ++ ":" ++ right ∧ ':' ∉ left.toList := by
  obtain ⟨left, right, parts, first⟩ := List.eq_append_cons_of_mem colon
  refine ⟨.ofList left, .ofList right, ?_, by rwa [String.toList_ofList]⟩
  rw [← String.toList_inj, parts]
  simp

theorem splitAtColon?_pair {left : String} (first : ':' ∉ left.toList) (right : String) :
    splitAtColon? (left ++ ":" ++ right) = some (left, right) := by
  have before : ∀ c ∈ left.toList, decide (c ≠ ':') := by
    intro c member
    simpa using fun equal : c = ':' => first (equal ▸ member)
  have text : (left ++ ":" ++ right).toList = left.toList ++ ':' :: right.toList := by simp
  have rest : (left.toList ++ ':' :: right.toList).dropWhile (· ≠ ':') = ':' :: right.toList := by
    rw [List.dropWhile_append_of_pos before]
    rfl
  have start : (left.toList ++ ':' :: right.toList).takeWhile (· ≠ ':') = left.toList := by
    rw [List.takeWhile_append_of_pos before]
    simp
  simp only [splitAtColon?, text, rest, start, String.ofList_toList]

theorem splitAtColon?_eq_none {text : String} (noColon : ':' ∉ text.toList) :
    splitAtColon? text = none := by
  have nothing : text.toList.dropWhile (· ≠ ':') = [] := by
    rw [List.dropWhile_eq_nil_iff]
    intro c member
    simpa using fun equal : c = ':' => noColon (equal ▸ member)
  simp only [splitAtColon?, nothing]

/-- A text with a colon is no preset, in whatever case it is written. -/
theorem presetNames?_eq_none {text : String} (colon : ':' ∈ text.toList) :
    presetNames? text.toLower = none := by
  have apart : ∀ preset ∈ presets, ':' ∉ preset.1.toList := by decide +kernel
  refine Option.eq_none_iff_forall_ne_some.mpr fun names found => ?_
  exact apart _ (presetNames?_eq_some_iff.mp found) (colon_mem_toLower_iff.mpr colon)

/-! ## Texts -/

/-- What a text stands for: a preset, or a colorimetry and a curve with a colon between them. -/
inductive Denotes : String → Names → Prop
  | preset {text : String} {names : Names} (known : (text.toLower, names) ∈ presets) :
      Denotes text names
  | pair {left right : String} {named : NamedColorimetry} {curve : Curve}
      (first : ':' ∉ left.toList) (colorimetry : named.IsWritten left)
      (transfer : curve.IsWritten right) : Denotes (left ++ ":" ++ right) ⟨named, curve⟩

theorem readNames_pair {left : String} (first : ':' ∉ left.toList) (right : String) :
    readNames (left ++ ":" ++ right) = (do
      let named ← (NamedColorimetry.ofName? left).mapError (.part (left ++ ":" ++ right))
      let curve ← (Curve.ofName? right).mapError (.part (left ++ ":" ++ right))
      pure ⟨named, curve⟩) := by
  have colon : ':' ∈ (left ++ ":" ++ right).toList := by simp
  rw [readNames, presetNames?_eq_none colon, splitAtColon?_pair first]

theorem readNames_eq_ok_iff {text : String} {names : Names} :
    readNames text = .ok names ↔ Denotes text names := by
  constructor
  · intro accepted
    by_cases colon : ':' ∈ text.toList
    · obtain ⟨left, right, rfl, first⟩ := exists_pair_of_colon colon
      rw [readNames_pair first] at accepted
      cases colorimetry : NamedColorimetry.ofName? left with
      | error _ =>
        rw [colorimetry] at accepted
        cases accepted
      | ok named =>
        cases transfer : Curve.ofName? right with
        | error _ =>
          rw [colorimetry, transfer] at accepted
          cases accepted
        | ok curve =>
          rw [colorimetry, transfer] at accepted
          cases accepted
          exact .pair first (NamedColorimetry.ofName?_eq_ok_iff.mp colorimetry)
            (Curve.ofName?_eq_ok_iff.mp transfer)
    · cases preset : presetNames? text.toLower with
      | none =>
        rw [readNames, preset, splitAtColon?_eq_none colon] at accepted
        cases accepted
      | some found =>
        rw [readNames, preset] at accepted
        cases accepted
        exact .preset (presetNames?_eq_some_iff.mp preset)
  · intro denotes
    cases denotes with
    | preset known => rw [readNames, presetNames?_eq_some_iff.mpr known]
    | pair first colorimetry transfer =>
      rw [readNames_pair first, NamedColorimetry.ofName?_eq_ok_iff.mpr colorimetry,
        Curve.ofName?_eq_ok_iff.mpr transfer]
      rfl

/-- The case of ASCII letters does not matter in any part of a text. -/
theorem Denotes.of_toLower_eq {text other : String} {names : Names} (denotes : Denotes text names)
    (same : other.toLower = text.toLower) : Denotes other names := by
  cases denotes with
  | preset known => exact .preset (same ▸ known)
  | @pair left right named curve first colorimetry transfer =>
    have colon : ':' ∈ other.toList := by
      rw [← colon_mem_toLower_iff, same, toLower_pair]
      simp
    obtain ⟨otherLeft, otherRight, rfl, otherFirst⟩ := exists_pair_of_colon colon
    rw [toLower_pair, toLower_pair] at same
    have split := congrArg splitAtColon? same
    rw [splitAtColon?_pair (colon_mem_toLower_iff.not.mpr otherFirst),
      splitAtColon?_pair (colon_mem_toLower_iff.not.mpr first), Option.some.injEq,
      Prod.mk.injEq] at split
    exact .pair otherFirst ((NamedColorimetry.isWritten_congr split.1).mpr colorimetry)
      ((Curve.isWritten_congr split.2).mpr transfer)

theorem toOption_readNames_congr {text other : String} (same : other.toLower = text.toLower) :
    (readNames other).toOption = (readNames text).toOption := by
  have iff_ok (text : String) (names : Names) :
      (readNames text).toOption = some names ↔ Denotes text names := by
    rw [← readNames_eq_ok_iff]
    cases readNames text <;> simp [Except.toOption]
  ext names
  rw [iff_ok, iff_ok]
  exact ⟨fun denotes => denotes.of_toLower_eq same.symm, fun denotes => denotes.of_toLower_eq same⟩

/-! ## Descriptions -/

variable {α ω : Type} [Scalar α] [Scalar ω] [Precision α ω]

/-- The colorimetry and the curve of a description that was read. -/
def chosen? (result : Except DescriptionError (Description α ω)) :
    Option (Colorimetry α ω × Curve) :=
  result.toOption.map fun d => (d.colorimetry, d.transfer.curve)

omit [Scalar ω] [Precision α ω] in
theorem curve_override (base : Description α ω) (overrides : LuminanceOverrides α) :
    (base.override overrides).transfer.curve = base.transfer.curve :=
  TransferFunction.curve_scaled _ _

theorem read_of_denotes {text : String} {names : Names} (denotes : Denotes text names)
    (overrides : LuminanceOverrides α) :
    (read text overrides : Except _ (Description α ω)) =
      .ok ((ofNames names).override overrides) := by
  rw [read, readNames_eq_ok_iff.mpr denotes]
  rfl

theorem exists_denotes_of_read {text : String} {overrides : LuminanceOverrides α}
    {d : Description α ω} (accepted : read text overrides = .ok d) :
    ∃ names, Denotes text names ∧ d = (ofNames names).override overrides := by
  cases found : readNames text with
  | error _ =>
    rw [read, found] at accepted
    cases accepted
  | ok names =>
    have denotes : Denotes text names := readNames_eq_ok_iff.mp found
    rw [read_of_denotes denotes] at accepted
    exact ⟨names, denotes, (Except.ok.inj accepted).symm⟩

theorem chosen?_read (text : String) (overrides : LuminanceOverrides α) :
    chosen? (read text overrides : Except _ (Description α ω)) =
      (readNames text).toOption.map fun names => (.ofNamed names.colorimetry, names.curve) := by
  rw [read, chosen?]
  cases readNames text with
  | error _ => rfl
  | ok names =>
    have curve := curve_override (ofNames names : Description α ω) overrides
    exact congrArg (fun curve => some (_, curve)) curve

theorem read_of_no_colon {text : String} (noPreset : ∀ names, (text.toLower, names) ∉ presets)
    (noColon : ':' ∉ text.toList) (overrides : LuminanceOverrides α) :
    (read text overrides : Except _ (Description α ω)) = .error (.form text) := by
  have preset : presetNames? text.toLower = none :=
    Option.eq_none_iff_forall_ne_some.mpr fun names found =>
      noPreset names (presetNames?_eq_some_iff.mp found)
  rw [read, readNames, preset, splitAtColon?_eq_none noColon]
  rfl

theorem read_of_unknown_colorimetry {left : String} (first : ':' ∉ left.toList)
    (unknown : ∀ named : NamedColorimetry, ¬ named.IsWritten left) (right : String)
    (overrides : LuminanceOverrides α) :
    (read (left ++ ":" ++ right) overrides : Except _ (Description α ω)) =
      .error (.part (left ++ ":" ++ right) (.colorimetry left)) := by
  rw [read, readNames_pair first, NamedColorimetry.ofName?_eq_error unknown]
  rfl

theorem read_of_unknown_curve {left right : String} {named : NamedColorimetry}
    (first : ':' ∉ left.toList) (known : named.IsWritten left)
    (unknown : ∀ curve : Curve, ¬ curve.IsWritten right) (overrides : LuminanceOverrides α) :
    (read (left ++ ":" ++ right) overrides : Except _ (Description α ω)) =
      .error (.part (left ++ ":" ++ right) (.transferFunction right)) := by
  rw [read, readNames_pair first, NamedColorimetry.ofName?_eq_ok_iff.mpr known,
    Curve.ofName?_eq_error unknown]
  rfl

/-- Exactly the texts of the grammar are read, and they give the colorimetry and the curve that they
stand for, whatever luminances are set and in whatever case the text is written.  Of a text that is
refused the first thing that is wrong is reported: that it has no colon, then the colorimetry, then
the curve. -/
theorem read_accepts_grammar (text : String) (overrides : LuminanceOverrides α) :
    ((∃ d : Description α ω, read text overrides = .ok d) ↔ ∃ names, Denotes text names) ∧
    (∀ names, Denotes text names →
      chosen? (read text overrides : Except _ (Description α ω)) =
        some (.ofNamed names.colorimetry, names.curve)) ∧
    (∀ (other : String) (others : LuminanceOverrides α), other.toLower = text.toLower →
      chosen? (read other others : Except _ (Description α ω)) = chosen? (read text overrides)) ∧
    ((∀ names, (text.toLower, names) ∉ presets) → ':' ∉ text.toList →
      (read text overrides : Except _ (Description α ω)) = .error (.form text)) ∧
    ∀ left right : String, text = left ++ ":" ++ right → ':' ∉ left.toList →
      ((∀ named : NamedColorimetry, ¬ named.IsWritten left) →
        (read text overrides : Except _ (Description α ω)) =
          .error (.part text (.colorimetry left))) ∧
      ∀ named : NamedColorimetry, named.IsWritten left →
        (∀ curve : Curve, ¬ curve.IsWritten right) →
        (read text overrides : Except _ (Description α ω)) =
          .error (.part text (.transferFunction right)) := by
  refine ⟨⟨?_, ?_⟩, ?_, ?_, ?_, ?_⟩
  · rintro ⟨d, accepted⟩
    obtain ⟨names, denotes, -⟩ := exists_denotes_of_read accepted
    exact ⟨names, denotes⟩
  · rintro ⟨names, denotes⟩
    exact ⟨_, read_of_denotes denotes overrides⟩
  · intro names denotes
    rw [chosen?_read, readNames_eq_ok_iff.mpr denotes]
    rfl
  · intro other others same
    rw [chosen?_read, chosen?_read, toOption_readNames_congr same]
  · intro noPreset noColon
    exact read_of_no_colon noPreset noColon overrides
  · rintro left right rfl first
    exact ⟨fun unknown => read_of_unknown_colorimetry first unknown right overrides,
      fun named known unknown => read_of_unknown_curve first known unknown overrides⟩

/-- Mixed case and an undefined reference, a preset in capitals, and two colons after a name that
nobody knows. -/
theorem read_accepts_grammar_mixedCase :
    let undefined : LuminanceOverrides Single := { reference := some .undefined }
    (Denotes "Display_P3:st2084" ⟨.displayP3, .pq⟩ ∧
      chosen? (read "DISPLAY_p3:ST2084" undefined : Except _ (Description Single Double)) =
        some (.ofNamed .displayP3, .pq)) ∧
    (∃ d : Description Single Double, read "HDR10" undefined = .ok d) ∧
    (read "hdr:pq:9" undefined : Except _ (Description Single Double)) =
      .error (.part "hdr:pq:9" (.colorimetry "hdr")) := by
  intro undefined
  have pair : Denotes "Display_P3:st2084" ⟨.displayP3, .pq⟩ :=
    @Denotes.pair "Display_P3" "st2084" _ _ (by decide +kernel) (by decide +kernel)
      (by decide +kernel)
  have preset : Denotes "HDR10" ⟨.bt2020, .pq⟩ := .preset (by decide +kernel)
  obtain ⟨-, named, anyCase, -, -⟩ :=
    read_accepts_grammar (α := Single) (ω := Double) "Display_P3:st2084" undefined
  obtain ⟨accepted, -, -, -, -⟩ :=
    read_accepts_grammar (α := Single) (ω := Double) "HDR10" undefined
  obtain ⟨-, -, -, -, refused⟩ :=
    read_accepts_grammar (α := Single) (ω := Double) "hdr:pq:9" undefined
  refine ⟨⟨pair, ?_⟩, accepted.mpr ⟨_, preset⟩, ?_⟩
  · have same : "DISPLAY_p3:ST2084".toLower = "Display_P3:st2084".toLower := by
      simp only [String.toLower, ← String.toList_inj, String.toList_map]
      decide
    exact (anyCase _ undefined same).trans (named ⟨.displayP3, .pq⟩ pair)
  · refine (refused "hdr" "pq:9" (by decide +kernel) (by decide +kernel)).1 fun named => ?_
    cases named <;> decide +kernel

end Description

end DisplayColor
