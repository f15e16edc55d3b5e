import DisplayColor.Device.Recorder
import DisplayColor.Proofs.Device.History
import DisplayColor.Proofs.Shader.Agreement

/-! # What binding a pipeline does

The tables of a pipeline are bound one after another, and each of them may need a texture first.  So
a device can fail after any number of slots were given new textures, and what was bound stays bound.
`TablesBound` has one case for each way in which this goes on.  It is the same for both kinds of
tables, which differ in the calls that show in the history and in nothing else.

No slot is ever given a texture other than the one that is cached for the table of the pipeline in
that slot, and the block is uploaded when nothing can fail any more.  Whether that texture was made
from that table is a question about the life of tables and not about a single binding. -/

namespace DisplayColor

variable {α σ τ : Type}

/-! ## The cache -/

namespace TextureCache

variable {β : Type} {cache : TextureCache β τ} {table other : Shared β} {texture : τ}

theorem find?_eq_some (found : cache.find? table = some texture) :
    ∃ entry ∈ cache.entries, entry.table.address = table.address ∧ entry.texture = texture := by
  obtain ⟨entry, search, rfl⟩ := Option.map_eq_some_iff.mp found
  have same := List.find?_some search
  exact ⟨entry, List.mem_of_find?_eq_some search, by simpa [Shared.same] using same, rfl⟩

theorem address_ne_of_find?_eq_none (missing : cache.find? table = none)
    {entry : CachedTexture β τ} (member : entry ∈ cache.entries) :
    entry.table.address ≠ table.address := by
  have search := Option.map_eq_none_iff.mp missing
  simpa [Shared.same] using List.find?_eq_none.mp search entry member

theorem find?_insert_self (cache : TextureCache β τ) (table : Shared β) (texture : τ) :
    (cache.insert table texture).find? table = some texture := by
  simp [find?, insert, Shared.same]

/-- A texture that is added for a table without one takes nothing away from other tables. -/
theorem find?_insert_of_missing (missing : cache.find? other = none) (added : τ)
    (found : cache.find? table = some texture) :
    (cache.insert other added).find? table = some texture := by
  obtain ⟨entry, member, address, _⟩ := find?_eq_some found
  have apart : other.address ≠ table.address := by
    -- A texture that is found for one address is found for every table at that address.
    intro same
    exact address_ne_of_find?_eq_none missing member (address.trans same.symm)
  have differs : other.same table = false := by simpa [Shared.same] using apart
  simp only [find?, insert, List.find?_cons, differs]
  exact found

end TextureCache

/-! ## Tables of one kind -/

/-- How the calls for one kind of tables show in a history. -/
structure TableEvents (α τ β : Type) where
  made : Shared β → Created τ → DeviceEvent α τ
  bound : Nat → Created τ → DeviceEvent α τ
  creation_made : ∀ table texture, (made table texture).creation? = some texture
  creation_bound : ∀ slot texture, (bound slot texture).creation? = none

def TableEvents.curves : TableEvents α τ (CurveLut α) where
  made := .createdCurves
  bound := .boundCurves
  creation_made _ _ := rfl
  creation_bound _ _ := rfl

/-- There is one slot for a cube table, so its number does not show. -/
def TableEvents.cubes : TableEvents α τ (CubeLut α) where
  made := .createdCube
  bound _ := .boundCube
  creation_made _ _ := rfl
  creation_bound _ _ := rfl

/-- The call makes a texture for one of the tables, or it gives a slot the texture that is cached
for the table of that slot.  The first table belongs to the slot `slot`. -/
def TableEvents.IsCallFor {β : Type} (events : TableEvents α τ β) (slot : Nat)
    (tables : List (Shared β)) (cache : TextureCache β (Created τ)) (event : DeviceEvent α τ) :
    Prop :=
  (∃ table ∈ tables, ∃ texture, event = events.made table texture) ∨
    ∃ index table texture, tables[index]? = some table ∧ cache.find? table = some texture ∧
      event = events.bound (slot + index) texture

theorem TableEvents.IsCallFor.cons {β : Type} {events : TableEvents α τ β} {slot : Nat}
    {first : Shared β} {rest : List (Shared β)} {cache : TextureCache β (Created τ)}
    {event : DeviceEvent α τ} (call : events.IsCallFor (slot + 1) rest cache event) :
    events.IsCallFor slot (first :: rest) cache event := by
  obtain ⟨table, listed, made⟩ | ⟨index, table, texture, listed, cached, rfl⟩ := call
  · exact .inl ⟨table, List.mem_cons_of_mem first listed, made⟩
  · refine .inr ⟨index + 1, table, texture, listed, cached, ?_⟩
    rw [Nat.add_assoc, Nat.add_comm 1]

/-- The textures cached for one kind of tables, with the history of the device. -/
structure Shelf (α τ β : Type) where
  cache : TextureCache β (Created τ)
  history : List (DeviceEvent α τ)

/-- The ways in which tables are bound to the slots from `slot` on. -/
inductive TablesBound {β : Type} (events : TableEvents α τ β) :
    Nat → List (Shared β) → Shelf α τ β → Except String Unit → Shelf α τ β → Prop
  | done {slot : Nat} {shelf : Shelf α τ β} : TablesBound events slot [] shelf (.ok ()) shelf
  | refused {slot : Nat} {table : Shared β} {rest : List (Shared β)} {shelf : Shelf α τ β}
      {report : String} (missing : shelf.cache.find? table = none) :
      TablesBound events slot (table :: rest) shelf (.error report) shelf
  | found {slot : Nat} {table : Shared β} {rest : List (Shared β)} {shelf after : Shelf α τ β}
      {texture : Created τ} {result : Except String Unit}
      (found : shelf.cache.find? table = some texture)
      (later : TablesBound events (slot + 1) rest
        ⟨shelf.cache, events.bound slot texture :: shelf.history⟩ result after) :
      TablesBound events slot (table :: rest) shelf result after
  | created {slot : Nat} {table : Shared β} {rest : List (Shared β)} {shelf after : Shelf α τ β}
      {texture : Created τ} {result : Except String Unit}
      (missing : shelf.cache.find? table = none) (moment : texture.moment = shelf.history.length)
      (later : TablesBound events (slot + 1) rest
        ⟨shelf.cache.insert table texture,
          events.bound slot texture :: events.made table texture :: shelf.history⟩ result after) :
      TablesBound events slot (table :: rest) shelf result after

namespace TablesBound

variable {β : Type} {events : TableEvents α τ β} {slot : Nat} {tables : List (Shared β)}
  {before after : Shelf α τ β} {result : Except String Unit}

theorem kept (bound : TablesBound events slot tables before result after) {table : Shared β}
    {texture : Created τ} (found : before.cache.find? table = some texture) :
    after.cache.find? table = some texture := by
  induction bound with
  | done => exact found
  | refused _ => exact found
  | found _ _ inductionHypothesis => exact inductionHypothesis found
  | created missing _ _ inductionHypothesis =>
    exact inductionHypothesis (TextureCache.find?_insert_of_missing missing _ found)

theorem timed (bound : TablesBound events slot tables before result after)
    (timed : History.IsTimed before.history) : History.IsTimed after.history := by
  induction bound with
  | done => exact timed
  | refused _ => exact timed
  | found _ _ inductionHypothesis =>
    refine inductionHypothesis ⟨?_, timed⟩
    simp [events.creation_bound]
  | created _ moment _ inductionHypothesis =>
    refine inductionHypothesis ⟨?_, ?_, timed⟩
    · simp [events.creation_bound]
    · simp [events.creation_made, moment]

/-- Only calls for the tables are made, and without a failure every slot is given a texture. -/
theorem later (bound : TablesBound events slot tables before result after) :
    ∃ later, after.history = later ++ before.history ∧
      (∀ event ∈ later, events.IsCallFor slot tables after.cache event) ∧
      (result = .ok () → ∀ index table, tables[index]? = some table →
        ∃ texture, events.bound (slot + index) texture ∈ later) := by
  -- In front of what happened later stands what happened for the first table.
  have first {slot : Nat} {table : Shared β} {rest : List (Shared β)} {later calls : List _}
      {texture : Created τ} {cache : TextureCache β (Created τ)} {result : Except String Unit}
      (cached : cache.find? table = some texture) (given : events.bound slot texture ∈ calls)
      (callsFor : ∀ event ∈ calls, event = events.bound slot texture ∨
        event = events.made table texture)
      (laterFor : ∀ event ∈ later, events.IsCallFor (slot + 1) rest cache event)
      (complete : result = .ok () → ∀ index table, rest[index]? = some table →
        ∃ texture, events.bound (slot + 1 + index) texture ∈ later) :
      (∀ event ∈ later ++ calls, events.IsCallFor slot (table :: rest) cache event) ∧
        (result = .ok () → ∀ index other, (table :: rest)[index]? = some other →
          ∃ texture, events.bound (slot + index) texture ∈ later ++ calls) := by
    refine ⟨?_, ?_⟩
    · intro event member
      obtain member | member := List.mem_append.mp member
      · exact (laterFor event member).cons
      · obtain rfl | rfl := callsFor event member
        · exact .inr ⟨0, table, texture, rfl, cached, rfl⟩
        · exact .inl ⟨table, List.mem_cons_self .., texture, rfl⟩
    · intro succeeded index other listed
      cases index with
      | zero => exact ⟨texture, List.mem_append_right _ given⟩
      | succ index =>
        obtain ⟨texture, member⟩ := complete succeeded index other listed
        rw [Nat.add_assoc, Nat.add_comm 1] at member
        exact ⟨texture, List.mem_append_left _ member⟩
  induction bound with
  | done => exact ⟨[], rfl, by simp, by simp⟩
  | refused _ => exact ⟨[], rfl, by simp, by simp⟩
  | @found slot _ _ _ _ texture _ found bound inductionHypothesis =>
    obtain ⟨later, history, callsFor, complete⟩ := inductionHypothesis
    refine ⟨later ++ [events.bound slot texture], by simp [history], ?_⟩
    exact first (bound.kept found) (by simp) (by simp) callsFor complete
  | @created slot table _ shelf _ texture _ _ _ bound inductionHypothesis =>
    obtain ⟨later, history, callsFor, complete⟩ := inductionHypothesis
    have cached := bound.kept (shelf.cache.find?_insert_self table texture)
    refine ⟨later ++ [events.bound slot texture, events.made table texture],
      by simp [history], ?_⟩
    exact first cached (by simp) (by simp) callsFor complete

theorem entries (bound : TablesBound events slot tables before result after)
    {entry : CachedTexture β (Created τ)} (member : entry ∈ after.cache.entries) :
    entry ∈ before.cache.entries ∨
      entry.table ∈ tables ∧ events.made entry.table entry.texture ∈ after.history := by
  induction bound with
  | done => exact .inl member
  | refused _ => exact .inl member
  | found _ _ inductionHypothesis =>
    obtain old | ⟨listed, made⟩ := inductionHypothesis member
    · exact .inl old
    · exact .inr ⟨List.mem_cons_of_mem _ listed, made⟩
  | created _ _ bound inductionHypothesis =>
    obtain known | ⟨listed, made⟩ := inductionHypothesis member
    · cases known with
      | head =>
        -- The texture was made just now, and the history has only grown since.
        obtain ⟨later, history, _⟩ := bound.later
        refine .inr ⟨List.mem_cons_self .., ?_⟩
        rw [history]
        exact List.mem_append_right _ (List.mem_cons_of_mem _ (List.mem_cons_self ..))
      | tail _ old => exact .inl old
    · exact .inr ⟨List.mem_cons_of_mem _ listed, made⟩

end TablesBound

/-! ## The textures of a pipeline -/

namespace Binder

def curveShelf (binder : Binder α (Observed α σ τ) (Created τ)) : Shelf α τ (CurveLut α) :=
  ⟨binder.curves, binder.device.history⟩

def cubeShelf (binder : Binder α (Observed α σ τ) (Created τ)) : Shelf α τ (CubeLut α) :=
  ⟨binder.cubes, binder.device.history⟩

variable (gpu : Device α σ τ) (binder : Binder α (Observed α σ τ) (Created τ))

theorem tablesBound_bindCurves (slot : Nat) (tables : List (Shared (CurveLut α))) :
    TablesBound .curves slot tables binder.curveShelf (bindCurves gpu.observed slot tables binder).1
        (bindCurves gpu.observed slot tables binder).2.curveShelf ∧
      (bindCurves gpu.observed slot tables binder).2.cubes = binder.cubes := by
  induction tables generalizing slot binder with
  | nil => exact ⟨.done, rfl⟩
  | cons table rest inductionHypothesis =>
    simp only [bindCurves, curveTexture]
    cases search : binder.curves.find? table with
    | some texture =>
      obtain ⟨bound, kept⟩ := inductionHypothesis
        { binder with device := gpu.observed.bindCurves slot texture binder.device } (slot + 1)
      exact ⟨.found search bound, kept⟩
    | none =>
      cases answer : gpu.createCurves table binder.device.device with
      | mk result device =>
        simp only [Device.observed, answer]
        cases result with
        | error report => exact ⟨.refused search, rfl⟩
        | ok handle =>
          -- The texture is cached before it is bound, so the tables after this one can find it.
          obtain ⟨bound, kept⟩ := inductionHypothesis
            { binder with
              device := gpu.observed.bindCurves slot ⟨binder.device.history.length, handle⟩
                ⟨device, .createdCurves table ⟨binder.device.history.length, handle⟩
                  :: binder.device.history⟩
              curves := binder.curves.insert table ⟨binder.device.history.length, handle⟩ }
            (slot + 1)
          exact ⟨.created search rfl bound, kept⟩

theorem tablesBound_bindCubes (slot : Nat) (tables : List (Shared (CubeLut α))) :
    TablesBound .cubes slot tables binder.cubeShelf (bindCubes gpu.observed tables binder).1
        (bindCubes gpu.observed tables binder).2.cubeShelf ∧
      (bindCubes gpu.observed tables binder).2.curves = binder.curves := by
  induction tables generalizing slot binder with
  | nil => exact ⟨.done, rfl⟩
  | cons table rest inductionHypothesis =>
    simp only [bindCubes, cubeTexture]
    cases search : binder.cubes.find? table with
    | some texture =>
      obtain ⟨bound, kept⟩ := inductionHypothesis
        { binder with device := gpu.observed.bindCube texture binder.device } (slot + 1)
      exact ⟨.found search bound, kept⟩
    | none =>
      cases answer : gpu.createCube table binder.device.device with
      | mk result device =>
        simp only [Device.observed, answer]
        cases result with
        | error report => exact ⟨.refused search, rfl⟩
        | ok handle =>
          obtain ⟨bound, kept⟩ := inductionHypothesis
            { binder with
              device := gpu.observed.bindCube ⟨binder.device.history.length, handle⟩
                ⟨device, .createdCube table ⟨binder.device.history.length, handle⟩
                  :: binder.device.history⟩
              cubes := binder.cubes.insert table ⟨binder.device.history.length, handle⟩ }
            (slot + 1)
          exact ⟨.created search rfl bound, kept⟩

end Binder

/-- The ways in which the tables of a pipeline are bound: first those of curves, then the cube. -/
inductive TexturesBound (tables : BoundTables α) (before : Binder α (Observed α σ τ) (Created τ)) :
    Except String Unit → Binder α (Observed α σ τ) (Created τ) → Prop
  | curvesRefused {after : Binder α (Observed α σ τ) (Created τ)} {report : String}
      (curves : TablesBound .curves 0 tables.curves before.curveShelf (.error report)
        after.curveShelf)
      (keptCubes : after.cubes = before.cubes) : TexturesBound tables before (.error report) after
  | cubes {middle after : Binder α (Observed α σ τ) (Created τ)} {result : Except String Unit}
      (curves : TablesBound .curves 0 tables.curves before.curveShelf (.ok ()) middle.curveShelf)
      (keptCubes : middle.cubes = before.cubes)
      (cubes : TablesBound .cubes 0 tables.cubes middle.cubeShelf result after.cubeShelf)
      (keptCurves : after.curves = middle.curves) : TexturesBound tables before result after

namespace TexturesBound

variable {tables : BoundTables α} {before after : Binder α (Observed α σ τ) (Created τ)}
  {result : Except String Unit}

theorem timed (bound : TexturesBound tables before result after)
    (timed : History.IsTimed before.device.history) : History.IsTimed after.device.history := by
  cases bound with
  | curvesRefused curves _ => exact curves.timed timed
  | cubes curves _ cubes _ => exact cubes.timed (curves.timed timed)

/-- Only calls for the tables are made, and without a failure every slot is given a texture. -/
theorem later (bound : TexturesBound tables before result after) :
    ∃ later, after.device.history = later ++ before.device.history ∧
      (∀ event ∈ later, TableEvents.curves.IsCallFor 0 tables.curves after.curves event ∨
        TableEvents.cubes.IsCallFor 0 tables.cubes after.cubes event) ∧
      (result = .ok () →
        (∀ slot table, tables.curves[slot]? = some table →
          ∃ texture, .boundCurves slot texture ∈ later) ∧
        (∀ table ∈ tables.cubes, ∃ texture, .boundCube texture ∈ later)) := by
  cases bound with
  | curvesRefused curves keptCubes =>
    obtain ⟨later, history, callsFor, _⟩ := curves.later
    exact ⟨later, history, fun event member => .inl (callsFor event member), by simp⟩
  | @cubes middle _ _ curves _ cubes keptCurves =>
    obtain ⟨curvesLater, curvesHistory, curvesFor, allCurves⟩ := curves.later
    obtain ⟨cubesLater, cubesHistory, cubesFor, allCubes⟩ := cubes.later
    refine ⟨cubesLater ++ curvesLater, ?_, ?_, ?_⟩
    · have joined : after.device.history = cubesLater ++ middle.device.history := cubesHistory
      have started : middle.device.history = curvesLater ++ before.device.history := curvesHistory
      rw [joined, started, List.append_assoc]
    · intro event member
      obtain member | member := List.mem_append.mp member
      · exact .inr (cubesFor event member)
      · -- What was cached for the curves is still cached after the cube.
        rw [keptCurves]
        exact .inl (curvesFor event member)
    · intro succeeded
      refine ⟨?_, ?_⟩
      · intro slot table listed
        obtain ⟨texture, member⟩ := allCurves rfl slot table listed
        rw [Nat.zero_add] at member
        exact ⟨texture, List.mem_append_right _ member⟩
      · intro table listed
        obtain ⟨slot, found⟩ := List.mem_iff_getElem?.mp listed
        obtain ⟨texture, member⟩ := allCubes succeeded slot table found
        exact ⟨texture, List.mem_append_left _ member⟩

theorem curveEntries (bound : TexturesBound tables before result after)
    {entry : CachedTexture (CurveLut α) (Created τ)} (member : entry ∈ after.curves.entries) :
    entry ∈ before.curves.entries ∨
      entry.table ∈ tables.curves ∧
        .createdCurves entry.table entry.texture ∈ after.device.history := by
  cases bound with
  | curvesRefused curves _ => exact curves.entries member
  | cubes curves _ cubes keptCurves =>
    rw [keptCurves] at member
    obtain old | ⟨listed, made⟩ := curves.entries member
    · exact .inl old
    · obtain ⟨later, history, _⟩ := cubes.later
      refine .inr ⟨listed, ?_⟩
      have joined : after.device.history = later ++ _ := history
      rw [joined]
      exact List.mem_append_right _ made

theorem cubeEntries (bound : TexturesBound tables before result after)
    {entry : CachedTexture (CubeLut α) (Created τ)} (member : entry ∈ after.cubes.entries) :
    entry ∈ before.cubes.entries ∨
      entry.table ∈ tables.cubes ∧
        .createdCube entry.table entry.texture ∈ after.device.history := by
  cases bound with
  | curvesRefused _ keptCubes =>
    rw [keptCubes] at member
    exact .inl member
  | cubes _ keptCubes cubes _ =>
    obtain old | made := cubes.entries member
    · refine .inl ?_
      rw [← keptCubes]
      exact old
    · exact .inr made

end TexturesBound

/-! ## Pipelines -/

/-- The ways in which a pipeline is bound. -/
inductive PipelineBound [Scalar α] (p : Pipeline α)
    (before : Binder α (Observed α σ τ) (Created τ)) :
    Except BindError (UniformBlock α) → Binder α (Observed α σ τ) (Created τ) → Prop
  | unfit {reason : FitError} (unfit : UniformBlock.ofPipeline p = .error reason) :
      PipelineBound p before (.error (.unfit reason)) before
  | refused {block : UniformBlock α} {report : String}
      {after : Binder α (Observed α σ τ) (Created τ)}
      (fits : UniformBlock.ofPipeline p = .ok block)
      (textures : TexturesBound (.ofPipeline p) before (.error report) after) :
      PipelineBound p before (.error (.device report)) after
  | notUploaded {block : UniformBlock α} {report : String} {device : σ}
      {after : Binder α (Observed α σ τ) (Created τ)}
      (fits : UniformBlock.ofPipeline p = .ok block)
      (textures : TexturesBound (.ofPipeline p) before (.ok ()) after) :
      PipelineBound p before (.error (.device report))
        { after with device := ⟨device, after.device.history⟩ }
  | uploaded {block : UniformBlock α} {device : σ} {after : Binder α (Observed α σ τ) (Created τ)}
      (fits : UniformBlock.ofPipeline p = .ok block)
      (textures : TexturesBound (.ofPipeline p) before (.ok ()) after) :
      PipelineBound p before (.ok block)
        { after with device := ⟨device, .uploaded block :: after.device.history⟩ }

namespace Binder

/-- An upload fails and shows nothing, or it succeeds and shows. -/
theorem upload_cases (gpu : Device α σ τ) (binder : Binder α (Observed α σ τ) (Created τ))
    (block : UniformBlock α) : ∃ device,
      (∃ report, binder.upload gpu.observed block =
        (.error report, { binder with device := ⟨device, binder.device.history⟩ })) ∨
      binder.upload gpu.observed block =
        (.ok (), { binder with device := ⟨device, .uploaded block :: binder.device.history⟩ }) := by
  cases answer : gpu.upload block binder.device.device with
  | mk result device =>
    simp only [upload, Device.observed, answer]
    cases result with
    | error report => exact ⟨device, .inl ⟨report, rfl⟩⟩
    | ok done => exact ⟨device, .inr rfl⟩

theorem pipelineBound_bind [Scalar α] (gpu : Device α σ τ)
    (binder : Binder α (Observed α σ τ) (Created τ)) (p : Pipeline α) :
    PipelineBound p binder (binder.bind gpu.observed p).1 (binder.bind gpu.observed p).2 := by
  simp only [bind]
  cases fits : UniformBlock.ofPipeline p with
  | error reason => exact .unfit fits
  | ok block =>
    simp only [bindBlock]
    obtain ⟨curves, keptCubes⟩ :=
      binder.tablesBound_bindCurves gpu 0 (BoundTables.ofPipeline p).curves
    cases afterCurves : bindCurves gpu.observed 0 (BoundTables.ofPipeline p).curves binder with
    | mk result middle =>
      rw [afterCurves] at curves keptCubes
      cases result with
      | error report => exact .refused fits (.curvesRefused curves keptCubes)
      | ok done =>
        dsimp only
        -- The cube is bound from the state in which the curves have left the binder.
        obtain ⟨cubes, keptCurves⟩ :=
          middle.tablesBound_bindCubes gpu 0 (BoundTables.ofPipeline p).cubes
        cases afterCubes : bindCubes gpu.observed (BoundTables.ofPipeline p).cubes middle with
        | mk result last =>
          rw [afterCubes] at cubes keptCurves
          have textures := TexturesBound.cubes curves keptCubes cubes keptCurves
          cases result with
          | error report => exact .refused fits textures
          | ok done =>
            dsimp only
            obtain ⟨device, ⟨report, failed⟩ | succeeded⟩ := last.upload_cases gpu block
            · rw [failed]
              exact .notUploaded fits textures
            · rw [succeeded]
              exact .uploaded fits textures

end Binder

/-- A pipeline that fits has at most one cube table. -/
theorem BoundTables.cubes_ofPipeline [Scalar α] {p : Pipeline α} {block : UniformBlock α}
    (fits : UniformBlock.ofPipeline p = .ok block) {table : Shared (CubeLut α)}
    (listed : table ∈ (ofPipeline p).cubes) : (ofPipeline p).cubes = [table] := by
  obtain ⟨_, usage, holds⟩ := UniformBlock.holds_of_ofPipeline fits
  have single : (ofPipeline p).cubes.length ≤ 1 := by
    have room := holds.fits .cube
    rwa [← map_cubes_ofPipeline, List.length_map] at room
  obtain ⟨other, only⟩ := List.length_eq_one_iff.mp
    (Nat.le_antisymm single (List.length_pos_of_mem listed))
  rw [only] at listed ⊢
  rw [List.mem_singleton.mp listed]

/-- What the calls of a binding have to do with the pipeline. -/
structure BindingCalls [Scalar α] (p : Pipeline α) (result : Except BindError (UniformBlock α))
    (after : Binder α (Observed α σ τ) (Created τ)) (later : List (DeviceEvent α τ)) : Prop where
  curves : ∀ slot texture, .boundCurves slot texture ∈ later → ∃ table,
    (BoundTables.ofPipeline p).curves[slot]? = some table ∧ after.curves.find? table = some texture
  cube : ∀ texture, .boundCube texture ∈ later → ∃ table,
    (BoundTables.ofPipeline p).cubes = [table] ∧ after.cubes.find? table = some texture
  createdCurves : ∀ table texture, .createdCurves table texture ∈ later →
    table ∈ (BoundTables.ofPipeline p).curves
  createdCube : ∀ table texture, .createdCube table texture ∈ later →
    table ∈ (BoundTables.ofPipeline p).cubes
  uploaded : ∀ block, .uploaded block ∈ later → result = .ok block
  complete : ∀ block, result = .ok block → UniformBlock.ofPipeline p = .ok block ∧
    .uploaded block ∈ later ∧
    (∀ slot table, (BoundTables.ofPipeline p).curves[slot]? = some table →
      ∃ texture, .boundCurves slot texture ∈ later) ∧
    (∀ table ∈ (BoundTables.ofPipeline p).cubes, ∃ texture, .boundCube texture ∈ later)

namespace TexturesBound

/-- The tables are those of a pipeline that fits, and so far nothing was uploaded. -/
theorem bindingCalls [Scalar α] {p : Pipeline α} {block : UniformBlock α}
    {before after : Binder α (Observed α σ τ) (Created τ)} {result : Except String Unit}
    (fits : UniformBlock.ofPipeline p = .ok block)
    (bound : TexturesBound (.ofPipeline p) before result after) :
    ∃ later, after.device.history = later ++ before.device.history ∧
      (∀ failure, BindingCalls p (.error failure) after later) ∧
      (result = .ok () → BindingCalls p (.ok block) after (.uploaded block :: later)) := by
  obtain ⟨later, history, callsFor, complete⟩ := bound.later
  -- A call is for curves or for the cube, and creates or binds, and all four look different.
  have curves (slot : Nat) (texture : Created τ) (member : .boundCurves slot texture ∈ later) :
      ∃ table, (BoundTables.ofPipeline p).curves[slot]? = some table ∧
        after.curves.find? table = some texture := by
    obtain (⟨_, _, _, ⟨⟩⟩ | ⟨index, table, other, listed, cached, same⟩) | (⟨_, _, _, ⟨⟩⟩ |
      ⟨_, _, _, _, _, ⟨⟩⟩) := callsFor _ member
    injection same with slots textures
    rw [slots, textures, Nat.zero_add]
    exact ⟨table, listed, cached⟩
  have cube (texture : Created τ) (member : .boundCube texture ∈ later) :
      ∃ table, (BoundTables.ofPipeline p).cubes = [table] ∧
        after.cubes.find? table = some texture := by
    obtain (⟨_, _, _, ⟨⟩⟩ | ⟨_, _, _, _, _, ⟨⟩⟩) | (⟨_, _, _, ⟨⟩⟩ |
      ⟨index, table, other, listed, cached, ⟨⟩⟩) := callsFor _ member
    exact ⟨table, BoundTables.cubes_ofPipeline fits (List.mem_of_getElem? listed), cached⟩
  have createdCurves (table : Shared (CurveLut α)) (texture : Created τ)
      (member : .createdCurves table texture ∈ later) :
      table ∈ (BoundTables.ofPipeline p).curves := by
    obtain (⟨_, listed, _, ⟨⟩⟩ | ⟨_, _, _, _, _, ⟨⟩⟩) | (⟨_, _, _, ⟨⟩⟩ | ⟨_, _, _, _, _, ⟨⟩⟩) :=
      callsFor _ member
    exact listed
  have createdCube (table : Shared (CubeLut α)) (texture : Created τ)
      (member : .createdCube table texture ∈ later) :
      table ∈ (BoundTables.ofPipeline p).cubes := by
    obtain (⟨_, _, _, ⟨⟩⟩ | ⟨_, _, _, _, _, ⟨⟩⟩) | (⟨_, listed, _, ⟨⟩⟩ | ⟨_, _, _, _, _, ⟨⟩⟩) :=
      callsFor _ member
    exact listed
  have nothingUploaded (other : UniformBlock α) : .uploaded other ∉ later := by
    intro member
    obtain (⟨_, _, _, ⟨⟩⟩ | ⟨_, _, _, _, _, ⟨⟩⟩) | (⟨_, _, _, ⟨⟩⟩ | ⟨_, _, _, _, _, ⟨⟩⟩) :=
      callsFor _ member
  refine ⟨later, history,
    fun failure => ⟨curves, cube, createdCurves, createdCube, ?_, by simp⟩, ?_⟩
  · intro other member
    exact absurd member (nothingUploaded other)
  · intro succeeded
    obtain ⟨allCurves, allCubes⟩ := complete succeeded
    refine ⟨by simpa using curves, by simpa using cube, by simpa using createdCurves,
      by simpa using createdCube, ?_, ?_⟩
    · intro other member
      obtain same | member := List.mem_cons.mp member
      · injection same with same
        rw [same]
      · exact absurd member (nothingUploaded other)
    · rintro _ ⟨⟩
      refine ⟨fits, List.mem_cons_self .., ?_, ?_⟩
      · intro slot table listed
        obtain ⟨texture, member⟩ := allCurves slot table listed
        exact ⟨texture, List.mem_cons_of_mem _ member⟩
      · intro table listed
        obtain ⟨texture, member⟩ := allCubes table listed
        exact ⟨texture, List.mem_cons_of_mem _ member⟩

end TexturesBound

namespace PipelineBound

variable [Scalar α] {p : Pipeline α} {before after : Binder α (Observed α σ τ) (Created τ)}
  {result : Except BindError (UniformBlock α)}

/-- Either nothing happens, or textures are bound and what follows creates no texture. -/
theorem textures (bound : PipelineBound p before result after) :
    after = before ∨ ∃ outcome middle, TexturesBound (.ofPipeline p) before outcome middle ∧
      after.curves = middle.curves ∧ after.cubes = middle.cubes ∧
      middle.device.history ⊆ after.device.history ∧
      (History.IsTimed middle.device.history → History.IsTimed after.device.history) := by
  cases bound with
  | unfit _ => exact .inl rfl
  | refused _ textures => exact .inr ⟨_, _, textures, rfl, rfl, List.Subset.refl _, id⟩
  | notUploaded _ textures => exact .inr ⟨_, _, textures, rfl, rfl, List.Subset.refl _, id⟩
  | uploaded _ textures =>
    refine .inr ⟨_, _, textures, rfl, rfl, List.subset_cons_self .., fun timed => ⟨?_, timed⟩⟩
    simp [DeviceEvent.creation?]

theorem timed (bound : PipelineBound p before result after)
    (timed : History.IsTimed before.device.history) : History.IsTimed after.device.history := by
  obtain rfl | ⟨_, _, textures, _, _, _, keepsTimed⟩ := bound.textures
  · exact timed
  · exact keepsTimed (textures.timed timed)

theorem curveEntries (bound : PipelineBound p before result after)
    {entry : CachedTexture (CurveLut α) (Created τ)} (member : entry ∈ after.curves.entries) :
    entry ∈ before.curves.entries ∨
      entry.table ∈ (BoundTables.ofPipeline p).curves ∧
        .createdCurves entry.table entry.texture ∈ after.device.history := by
  obtain rfl | ⟨_, _, textures, curves, _, included, _⟩ := bound.textures
  · exact .inl member
  · rw [curves] at member
    exact (textures.curveEntries member).imp_right fun ⟨listed, created⟩ =>
      ⟨listed, included created⟩

theorem cubeEntries (bound : PipelineBound p before result after)
    {entry : CachedTexture (CubeLut α) (Created τ)} (member : entry ∈ after.cubes.entries) :
    entry ∈ before.cubes.entries ∨
      entry.table ∈ (BoundTables.ofPipeline p).cubes ∧
        .createdCube entry.table entry.texture ∈ after.device.history := by
  obtain rfl | ⟨_, _, textures, _, cubes, included, _⟩ := bound.textures
  · exact .inl member
  · rw [cubes] at member
    exact (textures.cubeEntries member).imp_right fun ⟨listed, created⟩ =>
      ⟨listed, included created⟩

theorem bindingCalls (bound : PipelineBound p before result after) :
    ∃ later, after.device.history = later ++ before.device.history ∧
      BindingCalls p result after later := by
  cases bound with
  | unfit _ => exact ⟨[], rfl, by simp, by simp, by simp, by simp, by simp, by simp⟩
  | refused fits textures =>
    obtain ⟨later, history, calls, _⟩ := textures.bindingCalls fits
    exact ⟨later, history, calls _⟩
  | @notUploaded _ report _ _ fits textures =>
    obtain ⟨later, history, calls, _⟩ := textures.bindingCalls fits
    exact ⟨later, history, { calls (.device report) with }⟩
  | uploaded fits textures =>
    obtain ⟨later, history, _, calls⟩ := textures.bindingCalls fits
    exact ⟨_ :: later, by simp [history], { calls rfl with }⟩

end PipelineBound

/-! ## Failures -/

namespace Binder

/-- After a failure the shader still has the block of the pipeline that was bound last, but every
slot that was given a texture before the failure has a texture of the pipeline that was not bound.
Only a pipeline that does not fit leaves everything as it was. -/
theorem bind_failed [Scalar α] {gpu : Device α σ τ}
    {before after : Binder α (Observed α σ τ) (Created τ)} {p : Pipeline α} {failure : BindError}
    (failed : before.bind gpu.observed p = (.error failure, after)) :
    History.block? after.device.history = History.block? before.device.history ∧
      (∀ slot,
        History.curvesAt? after.device.history slot = History.curvesAt? before.device.history slot ∨
          ∃ table texture, (BoundTables.ofPipeline p).curves[slot]? = some table ∧
            after.curves.find? table = some texture ∧
            History.curvesAt? after.device.history slot = some texture) ∧
      (History.cube? after.device.history = History.cube? before.device.history ∨
        ∃ table texture, (BoundTables.ofPipeline p).cubes = [table] ∧
          after.cubes.find? table = some texture ∧
          History.cube? after.device.history = some texture) ∧
      ((∃ reason, failure = .unfit reason) → after = before) := by
  have bound := before.pipelineBound_bind gpu p
  rw [failed] at bound
  obtain ⟨later, history, calls⟩ := bound.bindingCalls
  refine ⟨?_, ?_, ?_, ?_⟩
  · -- An upload would be the last thing that happens, and then nothing has failed.
    rw [history]
    refine (History.findSome?_append_cases DeviceEvent.block? later _).resolve_right ?_
    rintro ⟨event, member, block, shows, _⟩
    obtain rfl := DeviceEvent.block?_eq_some.mp shows
    cases calls.uploaded block member
  · intro slot
    rw [history]
    refine (History.findSome?_append_cases (DeviceEvent.curvesAt? slot) later _).imp_right ?_
    rintro ⟨event, member, texture, shows, seen⟩
    obtain rfl := DeviceEvent.curvesAt?_eq_some.mp shows
    obtain ⟨table, listed, cached⟩ := calls.curves slot texture member
    exact ⟨table, texture, listed, cached, seen⟩
  · rw [history]
    refine (History.findSome?_append_cases DeviceEvent.cube? later _).imp_right ?_
    rintro ⟨event, member, texture, shows, seen⟩
    obtain rfl := DeviceEvent.cube?_eq_some.mp shows
    obtain ⟨table, listed, cached⟩ := calls.cube texture member
    exact ⟨table, texture, listed, cached, seen⟩
  · rintro ⟨reason, rfl⟩
    cases bound
    rfl

def curvesPipeline (table : Shared (CurveLut Single)) : Pipeline Single :=
  ⟨.unit, [⟨.unit, .curves table, .unit⟩]⟩

/-- A pipeline is bound to a device that accepts no more uploads afterwards. -/
def interrupted : Binder Single (Observed Single Recorder Nat) (Created Nat) :=
  let bound :=
    ((ofDevice ⟨.start, []⟩).bind Recorder.device.observed (curvesPipeline ⟨0, 0, .identity 2⟩)).2
  let stopped : Recorder := { bound.device.device with limits := { failUpload := true } }
  { bound with device := { bound.device with device := stopped } }

/-- The other table is in the slot, and the block that reads it is not. -/
theorem bind_failed_interrupted : ∃ after,
    interrupted.bind Recorder.device.observed (curvesPipeline ⟨1, 1, .identity 2⟩) =
        (.error (.device "upload failed"), after) ∧
      History.block? after.device.history = History.block? interrupted.device.history ∧
      History.curvesAt? after.device.history 0 = some ⟨3, 2⟩ := by
  obtain ⟨after, failed⟩ : ∃ after,
      interrupted.bind Recorder.device.observed (curvesPipeline ⟨1, 1, .identity 2⟩) =
        (.error (.device "upload failed"), after) := ⟨_, rfl⟩
  refine ⟨after, failed, (bind_failed failed).1, ?_⟩
  exact (congrArg (fun outcome => History.curvesAt? outcome.2.device.history 0) failed).symm

/-- Binding is not all or nothing. -/
theorem not_unchanged_of_bind_failed :
    ¬ ∀ (before after : Binder Single (Observed Single Recorder Nat) (Created Nat))
        (p : Pipeline Single) (failure : BindError),
      before.bind Recorder.device.observed p = (.error failure, after) →
        History.block? after.device.history = History.block? before.device.history ∧
        (∀ slot, History.curvesAt? after.device.history slot =
          History.curvesAt? before.device.history slot) ∧
        History.cube? after.device.history = History.cube? before.device.history := by
  intro unchanged
  have kept := (unchanged interrupted _ (curvesPipeline ⟨1, 1, .identity 2⟩) _ rfl).2.1 0
  have before : History.curvesAt? interrupted.device.history 0 = some ⟨0, 1⟩ := rfl
  rw [before] at kept
  cases kept

end Binder

end DisplayColor
