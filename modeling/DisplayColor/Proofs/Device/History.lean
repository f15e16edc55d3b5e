import DisplayColor.Device.Binder

/-! # What a device was told

A device is only known by its answers, and it may give out the same handle twice.  To say which
texture the shader reads, a device is observed: beside its own state there is a history of the calls
that succeeded, and every texture carries the moment at which it was created, which no other texture
shares.

Observation changes nothing.  A binder that is given the observed device does with the device itself
what it does without, which is `Binder.bind_erased`. -/

namespace DisplayColor

/-- A texture and the number of calls that had succeeded before it was created. -/
structure Created (τ : Type) where
  moment : Nat
  handle : τ
deriving DecidableEq

/-- A call that a device carried out. -/
inductive DeviceEvent (α τ : Type)
  | createdCurves (table : Shared (CurveLut α)) (texture : Created τ)
  | createdCube (table : Shared (CubeLut α)) (texture : Created τ)
  | boundCurves (slot : Nat) (texture : Created τ)
  | boundCube (texture : Created τ)
  | uploaded (block : UniformBlock α)

/-- A device with the calls that it carried out, the latest first. -/
structure Observed (α σ τ : Type) where
  device : σ
  history : List (DeviceEvent α τ)

variable {α σ τ : Type}

/-- The device that does what `gpu` does and keeps the history. -/
def Device.observed (gpu : Device α σ τ) : Device α (Observed α σ τ) (Created τ) where
  upload block observed :=
    match gpu.upload block observed.device with
    | (.error report, device) => (.error report, { observed with device })
    | (.ok (), device) => (.ok (), ⟨device, .uploaded block :: observed.history⟩)
  createCurves table observed :=
    match gpu.createCurves table observed.device with
    | (.error report, device) => (.error report, { observed with device })
    | (.ok handle, device) =>
      let texture := ⟨observed.history.length, handle⟩
      (.ok texture, ⟨device, .createdCurves table texture :: observed.history⟩)
  createCube table observed :=
    match gpu.createCube table observed.device with
    | (.error report, device) => (.error report, { observed with device })
    | (.ok handle, device) =>
      let texture := ⟨observed.history.length, handle⟩
      (.ok texture, ⟨device, .createdCube table texture :: observed.history⟩)
  bindCurves slot texture observed :=
    ⟨gpu.bindCurves slot texture.handle observed.device,
      .boundCurves slot texture :: observed.history⟩
  bindCube texture observed :=
    ⟨gpu.bindCube texture.handle observed.device, .boundCube texture :: observed.history⟩

/-! ## What the shader reads -/

namespace DeviceEvent

def block? : DeviceEvent α τ → Option (UniformBlock α)
  | uploaded block => some block
  | _ => none

def curvesAt? (slot : Nat) : DeviceEvent α τ → Option (Created τ)
  | boundCurves other texture => if other = slot then some texture else none
  | _ => none

def cube? : DeviceEvent α τ → Option (Created τ)
  | boundCube texture => some texture
  | _ => none

def creation? : DeviceEvent α τ → Option (Created τ)
  | createdCurves _ texture => some texture
  | createdCube _ texture => some texture
  | _ => none

theorem block?_eq_some {event : DeviceEvent α τ} {block : UniformBlock α} :
    event.block? = some block ↔ event = .uploaded block := by
  cases event <;> simp [block?]

theorem curvesAt?_eq_some {slot : Nat} {event : DeviceEvent α τ} {texture : Created τ} :
    event.curvesAt? slot = some texture ↔ event = .boundCurves slot texture := by
  cases event <;> simp [curvesAt?]

theorem cube?_eq_some {event : DeviceEvent α τ} {texture : Created τ} :
    event.cube? = some texture ↔ event = .boundCube texture := by
  cases event <;> simp [cube?]

end DeviceEvent

namespace History

/-- The block that was uploaded last. -/
def block? (history : List (DeviceEvent α τ)) : Option (UniformBlock α) :=
  history.findSome? DeviceEvent.block?

/-- The texture that was bound last to a slot for curve tables. -/
def curvesAt? (history : List (DeviceEvent α τ)) (slot : Nat) : Option (Created τ) :=
  history.findSome? (DeviceEvent.curvesAt? slot)

/-- The texture that was bound last for the cube table. -/
def cube? (history : List (DeviceEvent α τ)) : Option (Created τ) :=
  history.findSome? DeviceEvent.cube?

/-- What a history shows changes only by a later call that shows something. -/
theorem findSome?_append_cases {ε β : Type} (view : ε → Option β) (later earlier : List ε) :
    (later ++ earlier).findSome? view = earlier.findSome? view ∨
      ∃ event ∈ later, ∃ shown, view event = some shown ∧
        (later ++ earlier).findSome? view = some shown := by
  rw [List.findSome?_append]
  cases seen : later.findSome? view with
  | none => exact .inl rfl
  | some shown =>
    obtain ⟨event, member, shows⟩ := List.exists_of_findSome?_eq_some seen
    exact .inr ⟨event, member, shown, shows, rfl⟩

/-- A later call that shows something hides what was shown before. -/
theorem exists_findSome?_append {ε β : Type} {view : ε → Option β} {later : List ε} {event : ε}
    {shown : β} (member : event ∈ later) (shows : view event = some shown) (earlier : List ε) :
    ∃ event ∈ later, ∃ shown, view event = some shown ∧
      (later ++ earlier).findSome? view = some shown := by
  have visible : (later.findSome? view).isSome :=
    List.findSome?_isSome_iff.mpr ⟨event, member, by simp [shows]⟩
  obtain ⟨latest, seen⟩ := Option.isSome_iff_exists.mp visible
  obtain ⟨event, member, shows⟩ := List.exists_of_findSome?_eq_some seen
  refine ⟨event, member, latest, shows, ?_⟩
  rw [List.findSome?_append, seen, Option.some_or]

/-! ## Textures and the tables they were made from -/

/-- Every texture carries the moment of its creation. -/
def IsTimed : List (DeviceEvent α τ) → Prop
  | [] => True
  | event :: earlier =>
    (∀ texture ∈ event.creation?, texture.moment = earlier.length) ∧ IsTimed earlier

theorem IsTimed.moment_lt {history : List (DeviceEvent α τ)} (timed : IsTimed history)
    {event : DeviceEvent α τ} (member : event ∈ history) {texture : Created τ}
    (creation : event.creation? = some texture) : texture.moment < history.length := by
  induction history with
  | nil => cases member
  | cons latest earlier inductionHypothesis =>
    obtain ⟨now, before⟩ := timed
    simp only [List.length_cons]
    cases member with
    | head =>
      have moment := now texture creation
      omega
    | tail _ member =>
      have moment := inductionHypothesis before member
      omega

theorem IsTimed.creation_unique {history : List (DeviceEvent α τ)} (timed : IsTimed history)
    {first second : DeviceEvent α τ} (firstMember : first ∈ history)
    (secondMember : second ∈ history) {texture : Created τ}
    (firstCreation : first.creation? = some texture)
    (secondCreation : second.creation? = some texture) : first = second := by
  induction history with
  | nil => cases firstMember
  | cons latest earlier inductionHypothesis =>
    obtain ⟨now, before⟩ := timed
    cases firstMember with
    | head =>
      cases secondMember with
      | head => rfl
      | tail _ secondMember =>
        -- One texture cannot carry the present moment and an earlier one.
        have late := now texture firstCreation
        have early := before.moment_lt secondMember secondCreation
        omega
    | tail _ firstMember =>
      cases secondMember with
      | head =>
        have late := now texture secondCreation
        have early := before.moment_lt firstMember firstCreation
        omega
      | tail _ secondMember => exact inductionHypothesis before firstMember secondMember

/-- The texture was created from the curve table and from nothing else. -/
def IsCurvesTexture (history : List (DeviceEvent α τ)) (table : Shared (CurveLut α))
    (texture : Created τ) : Prop :=
  .createdCurves table texture ∈ history ∧
    ∀ event ∈ history, event.creation? = some texture → event = .createdCurves table texture

def IsCubeTexture (history : List (DeviceEvent α τ)) (table : Shared (CubeLut α))
    (texture : Created τ) : Prop :=
  .createdCube table texture ∈ history ∧
    ∀ event ∈ history, event.creation? = some texture → event = .createdCube table texture

theorem IsTimed.isCurvesTexture {history : List (DeviceEvent α τ)} (timed : IsTimed history)
    {table : Shared (CurveLut α)} {texture : Created τ}
    (made : .createdCurves table texture ∈ history) : IsCurvesTexture history table texture :=
  ⟨made, fun _ member creation => timed.creation_unique member made creation rfl⟩

theorem IsTimed.isCubeTexture {history : List (DeviceEvent α τ)} (timed : IsTimed history)
    {table : Shared (CubeLut α)} {texture : Created τ}
    (made : .createdCube table texture ∈ history) : IsCubeTexture history table texture :=
  ⟨made, fun _ member creation => timed.creation_unique member made creation rfl⟩

end History

/-! ## Observation changes nothing -/

def TextureCache.erased {β : Type} (cache : TextureCache β (Created τ)) : TextureCache β τ :=
  ⟨cache.entries.map fun entry => ⟨entry.table, entry.texture.handle⟩⟩

theorem TextureCache.find?_erased {β : Type} (cache : TextureCache β (Created τ))
    (table : Shared β) : cache.erased.find? table = (cache.find? table).map Created.handle := by
  simp only [find?, erased, List.find?_map, Option.map_map]
  rfl

theorem TextureCache.addresses_erased {β : Type} (cache : TextureCache β (Created τ)) :
    cache.erased.entries.map (fun entry => entry.table.address) =
      cache.entries.map fun entry => entry.table.address := by
  simp only [erased, List.map_map]
  rfl

theorem TextureCache.purge_erased {β : Type} (cache : TextureCache β (Created τ))
    (isHeld : Shared β → Bool) : (cache.purge isHeld).erased = cache.erased.purge isHeld := by
  simp only [purge, erased, List.filter_map]
  rfl

namespace Binder

/-- The binder without the history of its device. -/
def erased (binder : Binder α (Observed α σ τ) (Created τ)) : Binder α σ τ :=
  ⟨binder.device.device, binder.curves.erased, binder.cubes.erased⟩

variable (gpu : Device α σ τ) (binder : Binder α (Observed α σ τ) (Created τ))

theorem curveTexture_erased (table : Shared (CurveLut α)) :
    binder.erased.curveTexture gpu table =
      ((binder.curveTexture gpu.observed table).1.map Created.handle,
        (binder.curveTexture gpu.observed table).2.erased) := by
  have search : binder.erased.curves.find? table = _ := binder.curves.find?_erased table
  cases found : binder.curves.find? table with
  | some texture => simp [curveTexture, found, search, Except.map]
  | none =>
    have device : binder.erased.device = binder.device.device := rfl
    cases answer : gpu.createCurves table binder.device.device with
    | mk result after =>
      simp only [curveTexture, found, search, Option.map_none, Device.observed, device, answer]
      cases result <;> rfl

theorem cubeTexture_erased (table : Shared (CubeLut α)) :
    binder.erased.cubeTexture gpu table =
      ((binder.cubeTexture gpu.observed table).1.map Created.handle,
        (binder.cubeTexture gpu.observed table).2.erased) := by
  have search : binder.erased.cubes.find? table = _ := binder.cubes.find?_erased table
  cases found : binder.cubes.find? table with
  | some texture => simp [cubeTexture, found, search, Except.map]
  | none =>
    have device : binder.erased.device = binder.device.device := rfl
    cases answer : gpu.createCube table binder.device.device with
    | mk result after =>
      simp only [cubeTexture, found, search, Option.map_none, Device.observed, device, answer]
      cases result <;> rfl

theorem bindCurves_erased (tables : List (Shared (CurveLut α))) (slot : Nat) :
    bindCurves gpu slot tables binder.erased =
      ((bindCurves gpu.observed slot tables binder).1,
        (bindCurves gpu.observed slot tables binder).2.erased) := by
  induction tables generalizing slot binder with
  | nil => rfl
  | cons table rest inductionHypothesis =>
    have first := binder.curveTexture_erased gpu table
    simp only [bindCurves]
    cases given : binder.curveTexture gpu.observed table with
    | mk result after =>
      rw [given] at first
      rw [first]
      cases result with
      | error report => rfl
      | ok texture =>
        exact inductionHypothesis
          { after with device := gpu.observed.bindCurves slot texture after.device } (slot + 1)

theorem bindCubes_erased (tables : List (Shared (CubeLut α))) :
    bindCubes gpu tables binder.erased =
      ((bindCubes gpu.observed tables binder).1,
        (bindCubes gpu.observed tables binder).2.erased) := by
  induction tables generalizing binder with
  | nil => rfl
  | cons table rest inductionHypothesis =>
    have first := binder.cubeTexture_erased gpu table
    simp only [bindCubes]
    cases given : binder.cubeTexture gpu.observed table with
    | mk result after =>
      rw [given] at first
      rw [first]
      cases result with
      | error report => rfl
      | ok texture =>
        exact inductionHypothesis
          { after with device := gpu.observed.bindCube texture after.device }

theorem upload_erased (block : UniformBlock α) :
    binder.erased.upload gpu block =
      ((binder.upload gpu.observed block).1, (binder.upload gpu.observed block).2.erased) := by
  have device : binder.erased.device = binder.device.device := rfl
  cases answer : gpu.upload block binder.device.device with
  | mk result after =>
    simp only [upload, Device.observed, device, answer]
    cases result <;> rfl

theorem bindBlock_erased (block : UniformBlock α) (tables : BoundTables α) :
    bindBlock gpu block tables binder.erased =
      ((bindBlock gpu.observed block tables binder).1,
        (bindBlock gpu.observed block tables binder).2.erased) := by
  simp only [bindBlock, bindCurves_erased]
  cases bindCurves gpu.observed 0 tables.curves binder with
  | mk result afterCurves =>
    cases result with
    | error report => rfl
    | ok done =>
      simp only [bindCubes_erased]
      cases bindCubes gpu.observed tables.cubes afterCurves with
      | mk result afterCubes =>
        cases result with
        | error report => rfl
        | ok done => exact afterCubes.upload_erased gpu block

/-- A binder does with the device what it does with the observed device. -/
theorem bind_erased [Scalar α] (p : Pipeline α) :
    binder.erased.bind gpu p =
      ((binder.bind gpu.observed p).1, (binder.bind gpu.observed p).2.erased) := by
  simp only [bind]
  cases UniformBlock.ofPipeline p with
  | error reason => rfl
  | ok block =>
    simp only [bindBlock_erased]
    cases bindBlock gpu.observed block (.ofPipeline p) binder with
    | mk result after => cases result <;> rfl

end Binder

end DisplayColor
