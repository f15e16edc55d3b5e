import DisplayColor.Device.Binder

/-! # Workspaces

A workspace holds named tables and named pipelines, and binds pipelines to one device.  It is the
owner of its tables: a table lives for as long as a name, a step of a named pipeline or a cached
texture refers to it.  A new table is given the first address at which no table lives, so addresses
are used again. -/

namespace DisplayColor

/-- Things with names, each name at most once. -/
structure Directory (β : Type) where
  entries : List (String × β)

namespace Directory

variable {β : Type}

def empty : Directory β := ⟨[]⟩

def find? (directory : Directory β) (name : String) : Option β := directory.entries.lookup name

/-- Forgets a name, if it is known. -/
def erase (directory : Directory β) (name : String) : Directory β :=
  ⟨directory.entries.filter fun entry => entry.1 != name⟩

/-- Gives a name, which may have stood for something else, to a thing. -/
def insert (directory : Directory β) (name : String) (thing : β) : Directory β :=
  ⟨(name, thing) :: (directory.erase name).entries⟩

def values (directory : Directory β) : List β := directory.entries.map Prod.snd

end Directory

/-- Named tables and pipelines, and a binder for a device with state `σ` and textures `τ`. -/
structure Workspace (α σ τ : Type) where
  curves : Directory (Shared (CurveLut α))
  cubes : Directory (Shared (CubeLut α))
  pipelines : Directory (Pipeline α)
  tablesMade : Nat
  binder : Binder α σ τ

namespace Workspace

variable {α σ τ : Type}

/-- An empty workspace for a device. -/
def ofDevice (device : σ) : Workspace α σ τ := ⟨.empty, .empty, .empty, 0, .ofDevice device⟩

/-- The curve tables that a name or a pipeline refers to, once for each reference. -/
def heldCurves (w : Workspace α σ τ) : List (Shared (CurveLut α)) :=
  w.curves.values ++ w.pipelines.values.flatMap fun p => (BoundTables.ofPipeline p).curves

/-- The cube tables that a name or a pipeline refers to, once for each reference. -/
def heldCubes (w : Workspace α σ τ) : List (Shared (CubeLut α)) :=
  w.cubes.values ++ w.pipelines.values.flatMap fun p => (BoundTables.ofPipeline p).cubes

def addresses (w : Workspace α σ τ) : List Nat :=
  w.heldCurves.map Shared.address ++ w.heldCubes.map Shared.address
    ++ w.binder.curves.entries.map (fun entry => entry.table.address)
    ++ w.binder.cubes.entries.map fun entry => entry.table.address

/-- The first address at which no table lives; one of the first `n + 1` is free when `n` are not. -/
def freeAddress (w : Workspace α σ τ) : Nat :=
  let used := w.addresses
  ((List.range (used.length + 1)).find? fun address => !used.contains address).getD used.length

def defineCurves (w : Workspace α σ τ) (name : String) (table : CurveLut α) : Workspace α σ τ :=
  { w with
    curves := w.curves.insert name ⟨w.tablesMade, w.freeAddress, table⟩
    tablesMade := w.tablesMade + 1 }

def defineCube (w : Workspace α σ τ) (name : String) (table : CubeLut α) : Workspace α σ τ :=
  { w with
    cubes := w.cubes.insert name ⟨w.tablesMade, w.freeAddress, table⟩
    tablesMade := w.tablesMade + 1 }

def forgetTable (w : Workspace α σ τ) (name : String) : Workspace α σ τ :=
  { w with curves := w.curves.erase name, cubes := w.cubes.erase name }

def setPipeline (w : Workspace α σ τ) (name : String) (p : Pipeline α) : Workspace α σ τ :=
  { w with pipelines := w.pipelines.insert name p }

def forgetPipeline (w : Workspace α σ τ) (name : String) : Workspace α σ τ :=
  { w with pipelines := w.pipelines.erase name }

def bind [Scalar α] (w : Workspace α σ τ) (gpu : Device α σ τ) (p : Pipeline α) :
    Except BindError (UniformBlock α) × Workspace α σ τ :=
  match w.binder.bind gpu p with
  | (result, binder) => (result, { w with binder })

/-- Drops the textures of tables that neither a name nor a pipeline refers to. -/
def purge (w : Workspace α σ τ) : Workspace α σ τ :=
  let curves := w.heldCurves
  let cubes := w.heldCubes
  let isHeldCurves (table : Shared (CurveLut α)) : Bool := curves.any table.same
  let isHeldCube (table : Shared (CubeLut α)) : Bool := cubes.any table.same
  { w with binder := w.binder.purge isHeldCurves isHeldCube }

def withDevice (w : Workspace α σ τ) (device : σ) : Workspace α σ τ :=
  { w with binder := { w.binder with device } }

def renewBinder (w : Workspace α σ τ) : Workspace α σ τ :=
  { w with binder := .ofDevice w.binder.device }

end Workspace

end DisplayColor
