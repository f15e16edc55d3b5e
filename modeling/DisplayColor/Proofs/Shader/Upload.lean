import DisplayColor.Shader.Block

/-! # The layout of an upload

The shader declares its uniform block as a structure, so it reads every number from a fixed place:
the transfer functions begin at byte 512, the constants of the tone curve at byte 640, the
instructions at byte 672, the parameters of the tables at bytes 928 and 960, and the count at byte
976 of 992.  `UniformBlock.ofBytes` reads a block from these places and from nothing else.  What it
reads from an upload is the block that was uploaded.

An upload is a list of parts, and most of the parts are lists of slots again.  `HoldsAt` says where
a part begins; it is passed on from a list to what the list is made of. -/

namespace DisplayColor

/-! ## Slots -/

/-- Slots of one kind take up the same number of words, and can be read from these words whatever
stands behind them. -/
structure SlotLayout (β : Type) where
  length : Nat
  words : β → List UInt32
  read : List UInt32 → β
  length_words : ∀ slot, (words slot).length = length
  read_words : ∀ slot behind, read (words slot ++ behind) = slot

namespace SlotLayout

theorem length_flatMap_words {β : Type} (layout : SlotLayout β) {count : Nat}
    (slots : Vector β count) :
    (slots.toList.flatMap layout.words).length = count * layout.length := by
  simp only [List.length_flatMap, layout.length_words, List.map_const', List.sum_replicate_nat,
    Vector.length_toList]

def matrix : SlotLayout (MatrixSlot Single) where
  length := 16
  words := MatrixSlot.words
  read words := ⟨.ofFn fun i => ⟨words.getD i 0⟩⟩
  length_words slot := by simp [MatrixSlot.words]
  read_words := by
    rintro ⟨entries⟩ behind
    refine congrArg MatrixSlot.mk ?_
    ext i inside
    have within : i < (entries.toList.map Single.bits).length := by simp [inside]
    rw [Vector.getElem_ofFn, MatrixSlot.words, List.getD_eq_getElem?_getD,
      List.getElem?_append_left within, List.getElem?_eq_getElem within]
    simp

def transfer : SlotLayout (TransferSlot Single) where
  length := 4
  words := TransferSlot.words
  read words := ⟨words.getD 0 0, ⟨words.getD 1 0⟩, ⟨words.getD 2 0⟩⟩
  length_words _ := rfl
  read_words _ _ := rfl

def toneCurve : SlotLayout (ToneSlot Single) where
  length := 8
  words := ToneSlot.words
  read words :=
    ⟨⟨words.getD 0 0⟩, ⟨words.getD 1 0⟩, ⟨words.getD 2 0⟩, ⟨words.getD 3 0⟩, ⟨words.getD 4 0⟩⟩
  length_words _ := rfl
  read_words _ _ := rfl

def instruction : SlotLayout Instruction where
  length := 4
  words := Instruction.words
  read words := ⟨words.getD 0 0, words.getD 1 0⟩
  length_words _ := rfl
  read_words _ _ := rfl

/-- The parameters of a table. -/
def row : SlotLayout (Vec4 Single) where
  length := 4
  words := Vec4.words
  read words := ⟨⟨words.getD 0 0⟩, ⟨words.getD 1 0⟩, ⟨words.getD 2 0⟩, ⟨words.getD 3 0⟩⟩
  length_words _ := rfl
  read_words _ _ := rfl

/-- A number in a row of its own. -/
def count : SlotLayout UInt32 where
  length := 4
  words number := [number, 0, 0, 0]
  read words := words.getD 0 0
  length_words _ := rfl
  read_words _ _ := rfl

end SlotLayout

/-! ## Parts of a list -/

/-- A list has a part that begins at a place. -/
def HoldsAt (whole : List UInt32) (start : Nat) (part : List UInt32) : Prop :=
  part <+: whole.drop start

namespace HoldsAt

variable {whole part rest : List UInt32} {start : Nat}

theorem of_eq (equal : whole = part) : HoldsAt whole 0 part := by
  subst equal
  exact List.prefix_refl whole

theorem left (holds : HoldsAt whole start (part ++ rest)) : HoldsAt whole start part :=
  (List.prefix_append part rest).trans holds

theorem right (holds : HoldsAt whole start (part ++ rest)) {length : Nat}
    (size : part.length = length) : HoldsAt whole (start + length) rest := by
  obtain ⟨behind, split⟩ := holds
  refine ⟨behind, ?_⟩
  rw [← size, ← List.drop_drop, ← split, List.append_assoc, List.drop_left]

variable {β : Type} {layout : SlotLayout β}

/-- Slots of one kind follow each other. -/
theorem slot {slots : List β} (holds : HoldsAt whole start (slots.flatMap layout.words)) {i : Nat}
    {x : β} (found : slots[i]? = some x) :
    HoldsAt whole (start + layout.length * i) (layout.words x) := by
  induction slots generalizing start i with
  | nil => cases found
  | cons first later inductionHypothesis =>
    rw [List.flatMap_cons] at holds
    cases i with
    | zero =>
      cases found
      exact holds.left
    | succ i =>
      have behind := inductionHypothesis (holds.right (layout.length_words first)) found
      rwa [Nat.add_assoc, Nat.add_comm layout.length, ← Nat.mul_succ] at behind

theorem read_eq {x : β} (holds : HoldsAt whole start (layout.words x)) :
    layout.read (whole.drop start) = x := by
  obtain ⟨behind, split⟩ := holds
  rw [← split, layout.read_words]

theorem ofFn_read_eq {count : Nat} {slots : Vector β count}
    (holds : HoldsAt whole start (slots.toList.flatMap layout.words)) :
    Vector.ofFn (fun i : Fin count => layout.read (whole.drop (start + layout.length * i))) =
      slots := by
  ext i inside
  rw [Vector.getElem_ofFn]
  exact (holds.slot (by simp [inside])).read_eq

end HoldsAt

/-! ## Words -/

namespace UniformBlock

/-- Reads a block from its words. -/
def ofWords (words : List UInt32) : UniformBlock Single where
  matrices := .ofFn fun i => SlotLayout.matrix.read (words.drop (16 * i))
  transfers := .ofFn fun i => SlotLayout.transfer.read (words.drop (128 + 4 * i))
  toneCurve := SlotLayout.toneCurve.read (words.drop 160)
  instructions := .ofFn fun i => SlotLayout.instruction.read (words.drop (168 + 4 * i))
  curves := .ofFn fun i => SlotLayout.row.read (words.drop (232 + 4 * i))
  cube := SlotLayout.row.read (words.drop 240)
  count := SlotLayout.count.read (words.drop 244)

/-- Where the parts of a block begin, counted in words. -/
structure IsLaidOut (words : List UInt32) (block : UniformBlock Single) : Prop where
  matrices : HoldsAt words 0 (block.matrices.toList.flatMap SlotLayout.matrix.words)
  transfers : HoldsAt words 128 (block.transfers.toList.flatMap SlotLayout.transfer.words)
  toneCurve : HoldsAt words 160 (SlotLayout.toneCurve.words block.toneCurve)
  instructions : HoldsAt words 168 (block.instructions.toList.flatMap SlotLayout.instruction.words)
  curves : HoldsAt words 232 (block.curves.toList.flatMap SlotLayout.row.words)
  cube : HoldsAt words 240 (SlotLayout.row.words block.cube)
  count : HoldsAt words 244 (SlotLayout.count.words block.count)

theorem words_eq (block : UniformBlock Single) : block.words =
    block.matrices.toList.flatMap SlotLayout.matrix.words ++
      (block.transfers.toList.flatMap SlotLayout.transfer.words ++
        (SlotLayout.toneCurve.words block.toneCurve ++
          (block.instructions.toList.flatMap SlotLayout.instruction.words ++
            (block.curves.toList.flatMap SlotLayout.row.words ++
              (SlotLayout.row.words block.cube ++ SlotLayout.count.words block.count))))) := by
  simp only [words, List.append_assoc]
  rfl

theorem isLaidOut_words (block : UniformBlock Single) : IsLaidOut block.words block := by
  have matrices := HoldsAt.of_eq block.words_eq
  have transfers := matrices.right (SlotLayout.matrix.length_flatMap_words _)
  have toneCurve := transfers.right (SlotLayout.transfer.length_flatMap_words _)
  have instructions := toneCurve.right (SlotLayout.toneCurve.length_words _)
  have curves := instructions.right (SlotLayout.instruction.length_flatMap_words _)
  have cube := curves.right (SlotLayout.row.length_flatMap_words _)
  have count := cube.right (SlotLayout.row.length_words _)
  exact ⟨matrices.left, transfers.left, toneCurve.left, instructions.left, curves.left, cube.left,
    count⟩

theorem IsLaidOut.ofWords_eq {words : List UInt32} {block : UniformBlock Single}
    (laidOut : IsLaidOut words block) : ofWords words = block := by
  obtain ⟨matrices, transfers, toneCurve, instructions, curves, cube, count⟩ := laidOut
  have first := matrices.ofFn_read_eq
  simp only [Nat.zero_add] at first
  cases block
  simp only [ofWords, mk.injEq]
  exact ⟨first, transfers.ofFn_read_eq, toneCurve.read_eq, instructions.ofFn_read_eq,
    curves.ofFn_read_eq, cube.read_eq, count.read_eq⟩

theorem length_words (block : UniformBlock Single) : block.words.length = 248 := by
  rw [words_eq]
  simp only [List.length_append, SlotLayout.length_flatMap_words, SlotLayout.length_words]
  rfl

end UniformBlock

/-! ## Bytes -/

/-- Takes four bytes for a word, the lowest first. -/
def wordsOfBytes : List UInt8 → List UInt32
  | a :: b :: c :: d :: behind =>
    .ofNat (a.toNat + 256 * (b.toNat + 256 * (c.toNat + 256 * d.toNat))) :: wordsOfBytes behind
  | _ => []

theorem ofNat_littleEndian (word : UInt32) :
    .ofNat (word.toUInt8.toNat + 256 * ((word >>> 8).toUInt8.toNat +
      256 * ((word >>> 16).toUInt8.toNat + 256 * (word >>> 24).toUInt8.toNat))) = word := by
  have bound := word.toNat_lt
  apply UInt32.toNat_inj.mp
  simp [Nat.shiftRight_eq_div_pow]
  omega

theorem wordsOfBytes_littleEndian (words : List UInt32) :
    wordsOfBytes (words.flatMap littleEndian) = words := by
  induction words with
  | nil => rfl
  | cons word behind inductionHypothesis =>
    have first : wordsOfBytes (littleEndian word ++ behind.flatMap littleEndian) =
        word :: wordsOfBytes (behind.flatMap littleEndian) :=
      congrArg (· :: _) (ofNat_littleEndian word)
    rw [List.flatMap_cons, first, inductionHypothesis]

namespace UniformBlock

def ofBytes (bytes : List UInt8) : UniformBlock Single := ofWords (wordsOfBytes bytes)

/-- What is read from an upload is what was uploaded. -/
theorem ofBytes_bytes (block : UniformBlock Single) : ofBytes block.bytes = block := by
  rw [ofBytes, bytes, wordsOfBytes_littleEndian]
  exact block.isLaidOut_words.ofWords_eq

/-- Every upload has the size that the shader declares. -/
theorem length_bytes (block : UniformBlock Single) : block.bytes.length = 992 := by
  have even (word : UInt32) : (littleEndian word).length = 4 := rfl
  simp only [bytes, List.length_flatMap, even, List.map_const', List.sum_replicate_nat,
    length_words]

end UniformBlock

end DisplayColor
