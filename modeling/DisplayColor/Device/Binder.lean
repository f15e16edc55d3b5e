import DisplayColor.Pipeline.Conversion
import DisplayColor.Shader.Packing

/-! # Binding pipelines

A binder makes a pipeline the one that the shader of a device carries out: it packs the pipeline,
creates the textures of its tables unless they are cached, binds them, and uploads the block last.
The first failure ends the binding; what the device was told before stays as it is. -/

namespace DisplayColor

/-! ## Graphics devices

What the binder needs from a graphics device.  A device has a state of its own, which every call may
change, and hands out textures by handles.  Creating a texture and uploading a block can fail, with
a report; binding a texture cannot.  Nothing else is assumed, so a statement about every device
covers devices that fail whenever they like. -/

/-- A graphics device with state `σ` and textures `τ`. -/
structure Device (α σ τ : Type) where
  upload : UniformBlock α → σ → Except String Unit × σ
  createCurves : Shared (CurveLut α) → σ → Except String τ × σ
  createCube : Shared (CubeLut α) → σ → Except String τ × σ
  /-- Makes a texture the one that the shader reads in a slot for curve tables. -/
  bindCurves : Nat → τ → σ → σ
  /-- Makes a texture the one that the shader reads for the cube table. -/
  bindCube : τ → σ → σ

/-! ## Cached textures

Textures are kept by the address of the table they were created from.  A cached texture holds its
table, so the address cannot be given to another table for as long as the texture is cached. -/

/-- A texture with the table it was created from. -/
structure CachedTexture (β τ : Type) where
  table : Shared β
  texture : τ

structure TextureCache (β τ : Type) where
  entries : List (CachedTexture β τ)

namespace TextureCache

variable {β τ : Type}

def empty : TextureCache β τ := ⟨[]⟩

def size (cache : TextureCache β τ) : Nat := cache.entries.length

def find? (cache : TextureCache β τ) (table : Shared β) : Option τ :=
  (cache.entries.find? fun entry => entry.table.same table).map CachedTexture.texture

/-- Keeps a texture for a table that has none yet. -/
def insert (cache : TextureCache β τ) (table : Shared β) (texture : τ) : TextureCache β τ :=
  ⟨⟨table, texture⟩ :: cache.entries⟩

/-- Keeps only the textures whose table is held by someone else. -/
def purge (cache : TextureCache β τ) (isHeld : Shared β → Bool) : TextureCache β τ :=
  ⟨cache.entries.filter fun entry => isHeld entry.table⟩

end TextureCache

/-! ## The binder -/

/-- Why a pipeline was not bound. -/
inductive BindError
  /-- The pipeline does not fit the shader; the device was not called. -/
  | unfit (reason : FitError)
  | device (report : String)
deriving DecidableEq, Repr

def BindError.message : BindError → String
  | .unfit reason => reason.message
  | .device report => "GPU error: " ++ report

/-- The state of a device together with the textures cached for it. -/
structure Binder (α σ τ : Type) where
  device : σ
  curves : TextureCache (CurveLut α) τ
  cubes : TextureCache (CubeLut α) τ

namespace Binder

variable {α σ τ : Type}

def ofDevice (device : σ) : Binder α σ τ := ⟨device, .empty, .empty⟩

def cachedTextures (binder : Binder α σ τ) : Nat := binder.curves.size + binder.cubes.size

/-- The texture of a curve table, created unless it is cached. -/
def curveTexture (binder : Binder α σ τ) (gpu : Device α σ τ) (table : Shared (CurveLut α)) :
    Except String τ × Binder α σ τ :=
  match binder.curves.find? table with
  | some texture => (.ok texture, binder)
  | none =>
    match gpu.createCurves table binder.device with
    | (.error report, device) => (.error report, { binder with device })
    | (.ok texture, device) =>
      (.ok texture, { binder with device, curves := binder.curves.insert table texture })

/-- The texture of a cube table, created unless it is cached. -/
def cubeTexture (binder : Binder α σ τ) (gpu : Device α σ τ) (table : Shared (CubeLut α)) :
    Except String τ × Binder α σ τ :=
  match binder.cubes.find? table with
  | some texture => (.ok texture, binder)
  | none =>
    match gpu.createCube table binder.device with
    | (.error report, device) => (.error report, { binder with device })
    | (.ok texture, device) =>
      (.ok texture, { binder with device, cubes := binder.cubes.insert table texture })

def bindCurves (gpu : Device α σ τ) (slot : Nat) :
    List (Shared (CurveLut α)) → Binder α σ τ → Except String Unit × Binder α σ τ
  | [], binder => (.ok (), binder)
  | table :: rest, binder =>
    match binder.curveTexture gpu table with
    | (.error report, binder) => (.error report, binder)
    | (.ok texture, binder) =>
      bindCurves gpu (slot + 1) rest
        { binder with device := gpu.bindCurves slot texture binder.device }

def bindCubes (gpu : Device α σ τ) :
    List (Shared (CubeLut α)) → Binder α σ τ → Except String Unit × Binder α σ τ
  | [], binder => (.ok (), binder)
  | table :: rest, binder =>
    match binder.cubeTexture gpu table with
    | (.error report, binder) => (.error report, binder)
    | (.ok texture, binder) =>
      bindCubes gpu rest { binder with device := gpu.bindCube texture binder.device }

def upload (gpu : Device α σ τ) (block : UniformBlock α) (binder : Binder α σ τ) :
    Except String Unit × Binder α σ τ :=
  match gpu.upload block binder.device with
  | (result, device) => (result, { binder with device })

def bindBlock (gpu : Device α σ τ) (block : UniformBlock α) (tables : BoundTables α)
    (binder : Binder α σ τ) : Except String Unit × Binder α σ τ :=
  match bindCurves gpu 0 tables.curves binder with
  | (.error report, binder) => (.error report, binder)
  | (.ok (), binder) =>
    match bindCubes gpu tables.cubes binder with
    | (.error report, binder) => (.error report, binder)
    | (.ok (), binder) => upload gpu block binder

/-- Binds a pipeline; the result is the uploaded block. -/
def bind [Scalar α] (binder : Binder α σ τ) (gpu : Device α σ τ) (p : Pipeline α) :
    Except BindError (UniformBlock α) × Binder α σ τ :=
  match UniformBlock.ofPipeline p with
  | .error reason => (.error (.unfit reason), binder)
  | .ok block =>
    match bindBlock gpu block (.ofPipeline p) binder with
    | (.error report, binder) => (.error (.device report), binder)
    | (.ok (), binder) => (.ok block, binder)

def bindConversion {ω : Type} [Scalar α] [Scalar ω] [Precision α ω] (binder : Binder α σ τ)
    (gpu : Device α σ τ) (source target : Description α ω) (intent : Intent)
    (settings : Settings α) : Except BindError (UniformBlock α) × Binder α σ τ :=
  binder.bind gpu (.conversion source target intent settings)

/-- Drops the cached textures whose table is held by nobody else. -/
def purge (binder : Binder α σ τ) (curvesHeld : Shared (CurveLut α) → Bool)
    (cubeHeld : Shared (CubeLut α) → Bool) : Binder α σ τ :=
  { binder with curves := binder.curves.purge curvesHeld, cubes := binder.cubes.purge cubeHeld }

end Binder

end DisplayColor
