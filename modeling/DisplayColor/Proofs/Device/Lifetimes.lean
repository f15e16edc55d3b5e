import Mathlib.Logic.Relation
import DisplayColor.Proofs.Device.Binding
import DisplayColor.Workspace

/-! # The life of tables

A cache looks for textures by the address of a table, and addresses are given out again.  That it
still finds the right texture is a matter of who holds what: a cached texture holds its table, so
the address of that table is not free for as long as the texture can be found.

`Workspace.Step` says what can happen to a workspace.  Nothing in it says which free address a new
table gets, and the device may change between bindings in any way.  `TablesCoherent` is what all of
these steps preserve, the same for both kinds of tables. -/

namespace DisplayColor

variable {α σ τ β : Type}

/-- No two tables have the same address. -/
def AddressesApart (tables : List (Shared β)) : Prop :=
  ∀ first ∈ tables, ∀ second ∈ tables, first.address = second.address → first = second

theorem AddressesApart.of_subset {tables fewer : List (Shared β)} (apart : AddressesApart tables)
    (subset : fewer ⊆ tables) : AddressesApart fewer := by
  intro first firstMember second secondMember
  exact apart first (subset firstMember) second (subset secondMember)

/-- A table at an address where no other table is keeps the tables apart. -/
theorem AddressesApart.cons {tables : List (Shared β)} (apart : AddressesApart tables)
    {table : Shared β} (free : ∀ other ∈ tables, other.address ≠ table.address) :
    AddressesApart (table :: tables) := by
  intro first firstMember second secondMember same
  cases firstMember with
  | head =>
    cases secondMember with
    | head => rfl
    | tail _ secondMember => exact absurd same.symm (free second secondMember)
  | tail _ firstMember =>
    cases secondMember with
    | head => exact absurd same (free first firstMember)
    | tail _ secondMember => exact apart first firstMember second secondMember same

def TextureCache.tables (cache : TextureCache β τ) : List (Shared β) :=
  cache.entries.map CachedTexture.table

/-- No table that is held or cached lives at an address that neither of them takes. -/
theorem TextureCache.address_ne {cache : TextureCache β τ} {held : List (Shared β)} {address : Nat}
    (freeHeld : address ∉ held.map Shared.address)
    (freeCached : address ∉ cache.entries.map fun entry => entry.table.address)
    {table : Shared β} (member : table ∈ held ++ cache.tables) : table.address ≠ address := by
  rintro rfl
  obtain isHeld | cached := List.mem_append.mp member
  · exact freeHeld (List.mem_map_of_mem isHeld)
  · obtain ⟨entry, isEntry, rfl⟩ := List.mem_map.mp cached
    exact freeCached (List.mem_map.mpr ⟨entry, isEntry, rfl⟩)

/-! ## Tables of one kind -/

/-- The tables of one kind are in order: those that names and pipelines hold, and those that cached
textures hold.  Serial numbers are below the number of tables made so far, also those of tables that
are gone by now. -/
structure TablesCoherent (events : TableEvents α τ β) (held : List (Shared β))
    (shelf : Shelf α τ β) (tablesMade : Nat) : Prop where
  apart : AddressesApart (held ++ shelf.cache.tables)
  created : ∀ entry ∈ shelf.cache.entries, events.made entry.table entry.texture ∈ shelf.history
  living : ∀ table ∈ held ++ shelf.cache.tables, table.serial < tablesMade
  gone : ∀ table texture, events.made table texture ∈ shelf.history → table.serial < tablesMade

namespace TablesCoherent

variable {events : TableEvents α τ β} {held fewer : List (Shared β)} {shelf after : Shelf α τ β}
  {tablesMade : Nat}

theorem empty : TablesCoherent events [] ⟨.empty, []⟩ 0 where
  apart _ member := (List.not_mem_nil member).elim
  created _ member := (List.not_mem_nil member).elim
  living _ member := (List.not_mem_nil member).elim
  gone _ _ member := (List.not_mem_nil member).elim

/-- Nothing is wrong with letting go of tables and of textures. -/
theorem of_subset (coherent : TablesCoherent events held shelf tablesMade)
    (fewerHeld : fewer ⊆ held) (fewerCached : after.cache.entries ⊆ shelf.cache.entries)
    (sameHistory : after.history = shelf.history) :
    TablesCoherent events fewer after tablesMade := by
  have fewerTables : fewer ++ after.cache.tables ⊆ held ++ shelf.cache.tables :=
    List.append_subset.mpr ⟨List.subset_append_of_subset_left _ fewerHeld,
      List.subset_append_of_subset_right _ (List.map_subset _ fewerCached)⟩
  refine ⟨coherent.apart.of_subset fewerTables, ?_, ?_, ?_⟩
  · intro entry member
    rw [sameHistory]
    exact coherent.created entry (fewerCached member)
  · intro table member
    exact coherent.living table (fewerTables member)
  · intro table texture created
    rw [sameHistory] at created
    exact coherent.gone table texture created

theorem succ (coherent : TablesCoherent events held shelf tablesMade) :
    TablesCoherent events held shelf (tablesMade + 1) :=
  ⟨coherent.apart, coherent.created,
    fun table member => Nat.lt_succ_of_lt (coherent.living table member),
    fun table texture created => Nat.lt_succ_of_lt (coherent.gone table texture created)⟩

/-- A table of this kind is made at a free address. -/
theorem define (coherent : TablesCoherent events held shelf tablesMade) {address : Nat}
    (free : ∀ other ∈ held ++ shelf.cache.tables, other.address ≠ address) (table : β)
    {more : List (Shared β)} (added : more ⊆ ⟨tablesMade, address, table⟩ :: held) :
    TablesCoherent events more shelf (tablesMade + 1) := by
  have known : more ++ shelf.cache.tables ⊆
      ⟨tablesMade, address, table⟩ :: (held ++ shelf.cache.tables) :=
    List.append_subset.mpr ⟨List.Subset.trans added
      (List.cons_subset_cons _ (List.subset_append_left ..)),
      List.subset_cons_of_subset _ (List.subset_append_right ..)⟩
  refine ⟨(coherent.apart.cons free).of_subset known, coherent.created, ?_, coherent.succ.gone⟩
  intro other member
  cases known member with
  | head => exact Nat.lt_succ_self tablesMade
  | tail _ member => exact coherent.succ.living other member

/-- Textures are made for tables that are held. -/
theorem bound (coherent : TablesCoherent events held shelf tablesMade)
    {later : List (DeviceEvent α τ)} (history : after.history = later ++ shelf.history)
    (entries : ∀ entry ∈ after.cache.entries, entry ∈ shelf.cache.entries ∨
      entry.table ∈ held ∧ events.made entry.table entry.texture ∈ after.history)
    (laterCreated : ∀ table texture, events.made table texture ∈ later → table ∈ held) :
    TablesCoherent events held after tablesMade := by
  have known : held ++ after.cache.tables ⊆ held ++ shelf.cache.tables := by
    refine List.append_subset.mpr ⟨List.subset_append_left .., ?_⟩
    intro table member
    obtain ⟨entry, cached, rfl⟩ := List.mem_map.mp member
    -- A table that was not cached before is held anyway, so no table is new.
    obtain old | ⟨listed, _⟩ := entries entry cached
    · exact List.mem_append_right _ (List.mem_map_of_mem old)
    · exact List.mem_append_left _ listed
  refine ⟨coherent.apart.of_subset known, ?_, ?_, ?_⟩
  · intro entry member
    obtain old | ⟨_, created⟩ := entries entry member
    · rw [history]
      exact List.mem_append_right _ (coherent.created entry old)
    · exact created
  · intro table member
    exact coherent.living table (known member)
  · intro table texture created
    rw [history] at created
    obtain now | earlier := List.mem_append.mp created
    · exact coherent.living table (List.mem_append_left _ (laterCreated table texture now))
    · exact coherent.gone table texture earlier

/-- The texture that is found for a table was made from that table, and not only from one that was
at the same address once. -/
theorem created_of_find? (coherent : TablesCoherent events held shelf tablesMade)
    {table : Shared β} (isHeld : table ∈ held) {texture : Created τ}
    (found : shelf.cache.find? table = some texture) :
    events.made table texture ∈ shelf.history := by
  obtain ⟨entry, member, same, rfl⟩ := TextureCache.find?_eq_some found
  -- The texture holds its table, so both tables live now, and at one address there is only one.
  have isTable : entry.table = table :=
    coherent.apart _ (List.mem_append_right _ (List.mem_map_of_mem member)) _
      (List.mem_append_left _ isHeld) same
  rw [← isTable]
  exact coherent.created entry member

end TablesCoherent

/-! ## Steps of a workspace -/

namespace Directory

theorem values_erase_subset (directory : Directory β) (name : String) :
    (directory.erase name).values ⊆ directory.values :=
  List.map_subset _ (List.filter_subset_self ..)

theorem values_insert_subset (directory : Directory β) (name : String) (thing : β) :
    (directory.insert name thing).values ⊆ thing :: directory.values :=
  List.cons_subset_cons _ (directory.values_erase_subset name)

end Directory

namespace Workspace

/-- A new table is made at an address and is given a name. -/
def defineCurvesAt (w : Workspace α σ τ) (name : String) (table : CurveLut α) (address : Nat) :
    Workspace α σ τ :=
  { w with
    curves := w.curves.insert name ⟨w.tablesMade, address, table⟩
    tablesMade := w.tablesMade + 1 }

def defineCubeAt (w : Workspace α σ τ) (name : String) (table : CubeLut α) (address : Nat) :
    Workspace α σ τ :=
  { w with
    cubes := w.cubes.insert name ⟨w.tablesMade, address, table⟩
    tablesMade := w.tablesMade + 1 }

/-- Every table of the pipeline is held by a name or by a pipeline with a name. -/
structure Holds (w : Workspace α σ τ) (p : Pipeline α) : Prop where
  curves : (BoundTables.ofPipeline p).curves ⊆ w.heldCurves
  cubes : (BoundTables.ofPipeline p).cubes ⊆ w.heldCubes

/-- What can happen to a workspace.  Between bindings the device may change as `touched` allows. -/
inductive Step [Scalar α] (gpu : Device α σ τ) (touched : σ → σ → Prop) (w : Workspace α σ τ) :
    Workspace α σ τ → Prop
  | defineCurves (name : String) (table : CurveLut α) {address : Nat}
      (free : address ∉ w.addresses) : Step gpu touched w (w.defineCurvesAt name table address)
  | defineCube (name : String) (table : CubeLut α) {address : Nat} (free : address ∉ w.addresses) :
      Step gpu touched w (w.defineCubeAt name table address)
  | forgetTable (name : String) : Step gpu touched w (w.forgetTable name)
  | setPipeline (name : String) {p : Pipeline α} (holds : w.Holds p) :
      Step gpu touched w (w.setPipeline name p)
  | forgetPipeline (name : String) : Step gpu touched w (w.forgetPipeline name)
  | bind {p : Pipeline α} (holds : w.Holds p) : Step gpu touched w (w.bind gpu p).2
  | purge : Step gpu touched w w.purge
  | touch {device : σ} (allowed : touched w.binder.device device) :
      Step gpu touched w (w.withDevice device)
  | renewBinder : Step gpu touched w w.renewBinder

theorem freeAddress_not_mem (w : Workspace α σ τ) : w.freeAddress ∉ w.addresses := by
  simp only [freeAddress]
  cases search : (List.range (w.addresses.length + 1)).find?
      fun address => !w.addresses.contains address with
  | some address =>
    have free := List.find?_some search
    simpa using free
  | none =>
    -- The addresses that were tried would all be taken, and there is one too many of them.
    have taken : List.range (w.addresses.length + 1) ⊆ w.addresses := by
      intro address member
      have used := List.find?_eq_none.mp search address member
      simpa using used
    have atMost := (List.subperm_of_subset List.nodup_range taken).length_le
    rw [List.length_range] at atMost
    omega

theorem step_defineCurves [Scalar α] (gpu : Device α σ τ) (touched : σ → σ → Prop)
    (w : Workspace α σ τ) (name : String) (table : CurveLut α) :
    Step gpu touched w (w.defineCurves name table) :=
  .defineCurves name table w.freeAddress_not_mem

theorem step_defineCube [Scalar α] (gpu : Device α σ τ) (touched : σ → σ → Prop)
    (w : Workspace α σ τ) (name : String) (table : CubeLut α) :
    Step gpu touched w (w.defineCube name table) :=
  .defineCube name table w.freeAddress_not_mem

/-! ## What is held -/

/-- Tables are held by names and by pipelines. -/
theorem held_subset {named all : List (Shared β)} {pipelines : List (Pipeline α)}
    {tables : Pipeline α → List (Shared β)} (names : named ⊆ all)
    (each : ∀ p ∈ pipelines, tables p ⊆ all) : named ++ pipelines.flatMap tables ⊆ all := by
  refine List.append_subset.mpr ⟨names, ?_⟩
  intro table member
  obtain ⟨p, listed, member⟩ := List.mem_flatMap.mp member
  exact each p listed member

theorem holds_of_mem (w : Workspace α σ τ) {p : Pipeline α} (listed : p ∈ w.pipelines.values) :
    w.Holds p where
  curves _ member := List.mem_append_right _ (List.mem_flatMap.mpr ⟨p, listed, member⟩)
  cubes _ member := List.mem_append_right _ (List.mem_flatMap.mpr ⟨p, listed, member⟩)

section Held

variable (w : Workspace α σ τ) (name : String)

theorem heldCurves_defineCurvesAt (table : CurveLut α) (address : Nat) :
    (w.defineCurvesAt name table address).heldCurves ⊆
      ⟨w.tablesMade, address, table⟩ :: w.heldCurves := by
  refine held_subset ?_ fun p listed => ?_
  · exact List.Subset.trans (w.curves.values_insert_subset name _)
      (List.cons_subset_cons _ (List.subset_append_left ..))
  · exact List.subset_cons_of_subset _ (w.holds_of_mem listed).curves

theorem heldCubes_defineCubeAt (table : CubeLut α) (address : Nat) :
    (w.defineCubeAt name table address).heldCubes ⊆
      ⟨w.tablesMade, address, table⟩ :: w.heldCubes := by
  refine held_subset ?_ fun p listed => ?_
  · exact List.Subset.trans (w.cubes.values_insert_subset name _)
      (List.cons_subset_cons _ (List.subset_append_left ..))
  · exact List.subset_cons_of_subset _ (w.holds_of_mem listed).cubes

theorem held_forgetTable : (w.forgetTable name).heldCurves ⊆ w.heldCurves ∧
    (w.forgetTable name).heldCubes ⊆ w.heldCubes :=
  ⟨held_subset (List.subset_append_of_subset_left _ (w.curves.values_erase_subset name))
      fun _ listed => (w.holds_of_mem listed).curves,
    held_subset (List.subset_append_of_subset_left _ (w.cubes.values_erase_subset name))
      fun _ listed => (w.holds_of_mem listed).cubes⟩

theorem held_forgetPipeline : (w.forgetPipeline name).heldCurves ⊆ w.heldCurves ∧
    (w.forgetPipeline name).heldCubes ⊆ w.heldCubes := by
  have listed := w.pipelines.values_erase_subset name
  exact ⟨held_subset (List.subset_append_left ..) fun _ member =>
      (w.holds_of_mem (listed member)).curves,
    held_subset (List.subset_append_left ..) fun _ member => (w.holds_of_mem (listed member)).cubes⟩

theorem held_setPipeline {p : Pipeline α} (holds : w.Holds p) :
    (w.setPipeline name p).heldCurves ⊆ w.heldCurves ∧
      (w.setPipeline name p).heldCubes ⊆ w.heldCubes := by
  have each (q : Pipeline α) (listed : q ∈ (w.pipelines.insert name p).values) : w.Holds q := by
    cases w.pipelines.values_insert_subset name p listed with
    | head => exact holds
    | tail _ listed => exact w.holds_of_mem listed
  exact ⟨held_subset (List.subset_append_left ..) fun q listed => (each q listed).curves,
    held_subset (List.subset_append_left ..) fun q listed => (each q listed).cubes⟩

variable {w}

theorem curves_address_ne {address : Nat} (free : address ∉ w.addresses)
    {table : Shared (CurveLut α)} (member : table ∈ w.heldCurves ++ w.binder.curves.tables) :
    table.address ≠ address := by
  simp only [addresses, List.mem_append, not_or] at free
  exact TextureCache.address_ne free.1.1.1 free.1.2 member

theorem cubes_address_ne {address : Nat} (free : address ∉ w.addresses)
    {table : Shared (CubeLut α)} (member : table ∈ w.heldCubes ++ w.binder.cubes.tables) :
    table.address ≠ address := by
  simp only [addresses, List.mem_append, not_or] at free
  exact TextureCache.address_ne free.1.1.2 free.2 member

end Held

/-! ## What every step preserves -/

/-- The tables of both kinds are in order, and textures are not mistaken for each other. -/
structure IsCoherent (w : Workspace α (Observed α σ τ) (Created τ)) : Prop where
  curves : TablesCoherent .curves w.heldCurves w.binder.curveShelf w.tablesMade
  cubes : TablesCoherent .cubes w.heldCubes w.binder.cubeShelf w.tablesMade
  timed : History.IsTimed w.binder.device.history

/-- The device may be used without the binder, which the history does not show. -/
def keepsHistory (before after : Observed α σ τ) : Prop := after.history = before.history

variable [Scalar α] {gpu : Device α σ τ} {w next : Workspace α (Observed α σ τ) (Created τ)}

theorem IsCoherent.bind (coherent : w.IsCoherent) (gpu : Device α σ τ) {p : Pipeline α}
    (holds : w.Holds p) : (w.bind gpu.observed p).2.IsCoherent := by
  have bound := w.binder.pipelineBound_bind gpu p
  obtain ⟨later, history, calls⟩ := bound.bindingCalls
  refine ⟨coherent.curves.bound history ?_ ?_, coherent.cubes.bound history ?_ ?_,
    bound.timed coherent.timed⟩
  · intro entry member
    exact (bound.curveEntries member).imp_right fun ⟨listed, created⟩ =>
      ⟨holds.curves listed, created⟩
  · intro table texture created
    exact holds.curves (calls.createdCurves table texture created)
  · intro entry member
    exact (bound.cubeEntries member).imp_right fun ⟨listed, created⟩ =>
      ⟨holds.cubes listed, created⟩
  · intro table texture created
    exact holds.cubes (calls.createdCube table texture created)

theorem Step.isCoherent (step : Step gpu.observed keepsHistory w next) (coherent : w.IsCoherent) :
    next.IsCoherent := by
  obtain ⟨curves, cubes, timed⟩ := coherent
  cases step with
  | defineCurves name table free =>
    exact ⟨curves.define (fun _ => curves_address_ne free) table
      (w.heldCurves_defineCurvesAt name table _), cubes.succ, timed⟩
  | defineCube name table free =>
    exact ⟨curves.succ, cubes.define (fun _ => cubes_address_ne free) table
      (w.heldCubes_defineCubeAt name table _), timed⟩
  | forgetTable name =>
    obtain ⟨fewerCurves, fewerCubes⟩ := w.held_forgetTable name
    exact ⟨curves.of_subset fewerCurves (List.Subset.refl _) rfl,
      cubes.of_subset fewerCubes (List.Subset.refl _) rfl, timed⟩
  | setPipeline name holds =>
    obtain ⟨sameCurves, sameCubes⟩ := w.held_setPipeline name holds
    exact ⟨curves.of_subset sameCurves (List.Subset.refl _) rfl,
      cubes.of_subset sameCubes (List.Subset.refl _) rfl, timed⟩
  | forgetPipeline name =>
    obtain ⟨fewerCurves, fewerCubes⟩ := w.held_forgetPipeline name
    exact ⟨curves.of_subset fewerCurves (List.Subset.refl _) rfl,
      cubes.of_subset fewerCubes (List.Subset.refl _) rfl, timed⟩
  | bind holds => exact IsCoherent.bind ⟨curves, cubes, timed⟩ gpu holds
  | purge =>
    -- Dropping a texture lets go of its table, and it does not matter which ones are dropped.
    exact ⟨curves.of_subset (List.Subset.refl _) (List.filter_subset_self ..) rfl,
      cubes.of_subset (List.Subset.refl _) (List.filter_subset_self ..) rfl, timed⟩
  | @touch device allowed =>
    have same : device.history = w.binder.device.history := allowed
    exact ⟨curves.of_subset (List.Subset.refl _) (List.Subset.refl _) same,
      cubes.of_subset (List.Subset.refl _) (List.Subset.refl _) same,
      show History.IsTimed device.history from same ▸ timed⟩
  | renewBinder =>
    -- Nothing is cached any more, but the device goes on, and so does its history.
    exact ⟨curves.of_subset (List.Subset.refl _) (List.nil_subset _) rfl,
      cubes.of_subset (List.Subset.refl _) (List.nil_subset _) rfl, timed⟩

theorem isCoherent_ofDevice {α : Type} (device : σ) :
    (ofDevice ⟨device, []⟩ : Workspace α (Observed α σ τ) (Created τ)).IsCoherent :=
  ⟨.empty, .empty, trivial⟩

theorem isCoherent {device : σ}
    (run : Relation.ReflTransGen (Step gpu.observed keepsHistory) (.ofDevice ⟨device, []⟩) w) :
    w.IsCoherent := by
  induction run with
  | refl => exact isCoherent_ofDevice device
  | tail _ step inductionHypothesis => exact step.isCoherent inductionHypothesis

/-! ## Every run can be observed -/

/-- The workspace without the history of its device. -/
def erased {α : Type} (w : Workspace α (Observed α σ τ) (Created τ)) : Workspace α σ τ :=
  ⟨w.curves, w.cubes, w.pipelines, w.tablesMade, w.binder.erased⟩

theorem addresses_erased {α : Type} (w : Workspace α (Observed α σ τ) (Created τ)) :
    w.erased.addresses = w.addresses := by
  have curves := w.binder.curves.addresses_erased
  have cubes := w.binder.cubes.addresses_erased
  exact congrArg₂ _ (congrArg₂ _ rfl curves) cubes

theorem purge_erased {α : Type} (w : Workspace α (Observed α σ τ) (Created τ)) :
    w.purge.erased = w.erased.purge := by
  simp only [purge, erased, Binder.purge, Binder.erased, TextureCache.purge_erased]
  rfl

theorem bind_erased (gpu : Device α σ τ) (w : Workspace α (Observed α σ τ) (Created τ))
    (p : Pipeline α) :
    w.erased.bind gpu p = ((w.bind gpu.observed p).1, (w.bind gpu.observed p).2.erased) := by
  have binder := w.binder.bind_erased gpu p
  simp only [bind, erased, binder]

theorem Step.exists_observed {plain : Workspace α σ τ}
    (step : Step gpu (fun _ _ => True) w.erased plain) :
    ∃ next, Step gpu.observed keepsHistory w next ∧ next.erased = plain := by
  cases step with
  | defineCurves name table free =>
    rw [addresses_erased] at free
    exact ⟨_, .defineCurves name table free, rfl⟩
  | defineCube name table free =>
    rw [addresses_erased] at free
    exact ⟨_, .defineCube name table free, rfl⟩
  | forgetTable name => exact ⟨_, .forgetTable name, rfl⟩
  | setPipeline name holds => exact ⟨_, .setPipeline name ⟨holds.curves, holds.cubes⟩, rfl⟩
  | forgetPipeline name => exact ⟨_, .forgetPipeline name, rfl⟩
  | @bind p holds =>
    exact ⟨_, .bind ⟨holds.curves, holds.cubes⟩, (congrArg Prod.snd (w.bind_erased gpu p)).symm⟩
  | purge => exact ⟨_, .purge, w.purge_erased⟩
  | @touch device _ =>
    -- What others do with the device is in no history.
    have same : keepsHistory w.binder.device ⟨device, w.binder.device.history⟩ := rfl
    exact ⟨_, .touch same, rfl⟩
  | renewBinder => exact ⟨_, .renewBinder, rfl⟩

/-- Whatever happens to a workspace, the device could have been observed from the start. -/
theorem exists_observed {device : σ} {plain : Workspace α σ τ}
    (run : Relation.ReflTransGen (Step gpu fun _ _ => True) (.ofDevice device) plain) :
    ∃ w, Relation.ReflTransGen (Step gpu.observed keepsHistory) (.ofDevice ⟨device, []⟩) w ∧
      w.erased = plain := by
  induction run with
  | refl => exact ⟨_, .refl, rfl⟩
  | tail _ step inductionHypothesis =>
    obtain ⟨w, run, rfl⟩ := inductionHypothesis
    obtain ⟨next, step, same⟩ := step.exists_observed
    exact ⟨next, run.tail step, same⟩

/-! ## Textures are found for the right table -/

/-- Whatever happened before, a binding gives every slot the texture of the table that the pipeline
has there, and no other, also when it fails on the way.  If it succeeds, the shader has the block of
the pipeline and the textures of all of its tables. -/
theorem bind_textures {device : σ}
    (run : Relation.ReflTransGen (Step gpu.observed keepsHistory) (.ofDevice ⟨device, []⟩) w)
    {p : Pipeline α} (holds : w.Holds p) {result : Except BindError (UniformBlock α)}
    (bound : w.bind gpu.observed p = (result, next)) :
    w.erased.bind gpu p = (result, next.erased) ∧
      ∃ later, next.binder.device.history = later ++ w.binder.device.history ∧
        (∀ slot texture, .boundCurves slot texture ∈ later → ∃ table,
          (BoundTables.ofPipeline p).curves[slot]? = some table ∧
            History.IsCurvesTexture next.binder.device.history table texture) ∧
        (∀ texture, .boundCube texture ∈ later → ∃ table,
          (BoundTables.ofPipeline p).cubes = [table] ∧
            History.IsCubeTexture next.binder.device.history table texture) ∧
        ∀ block, result = .ok block →
          UniformBlock.ofPipeline p = .ok block ∧
            History.block? next.binder.device.history = some block ∧
            (∀ slot table, (BoundTables.ofPipeline p).curves[slot]? = some table → ∃ texture,
              History.curvesAt? next.binder.device.history slot = some texture ∧
                History.IsCurvesTexture next.binder.device.history table texture) ∧
            (∀ table ∈ (BoundTables.ofPipeline p).cubes,
              (BoundTables.ofPipeline p).cubes = [table] ∧ ∃ texture,
                History.cube? next.binder.device.history = some texture ∧
                  History.IsCubeTexture next.binder.device.history table texture) := by
  obtain rfl := congrArg Prod.fst bound
  obtain rfl := congrArg Prod.snd bound
  obtain ⟨curves, cubes, timed⟩ := (isCoherent run).bind gpu holds
  have same := w.bind_erased gpu p
  obtain ⟨later, history, calls⟩ := (w.binder.pipelineBound_bind gpu p).bindingCalls
  -- The tables of the pipeline are held, so what is found for them was made from them.
  have ownCurves {slot : Nat} {table : Shared (CurveLut α)} {texture : Created τ}
      (listed : (BoundTables.ofPipeline p).curves[slot]? = some table)
      (cached : (w.binder.bind gpu.observed p).2.curves.find? table = some texture) :=
    timed.isCurvesTexture
      (curves.created_of_find? (holds.curves (List.mem_of_getElem? listed)) cached)
  have ownCube {table : Shared (CubeLut α)} {texture : Created τ}
      (only : (BoundTables.ofPipeline p).cubes = [table])
      (cached : (w.binder.bind gpu.observed p).2.cubes.find? table = some texture) :=
    timed.isCubeTexture (cubes.created_of_find? (holds.cubes (by simp [only])) cached)
  refine ⟨same, later, history, ?_, ?_, ?_⟩
  · intro slot texture member
    obtain ⟨table, listed, cached⟩ := calls.curves slot texture member
    exact ⟨table, listed, ownCurves listed cached⟩
  · intro texture member
    obtain ⟨table, only, cached⟩ := calls.cube texture member
    exact ⟨table, only, ownCube only cached⟩
  · intro block succeeded
    obtain ⟨fits, uploaded, allCurves, allCubes⟩ := calls.complete block succeeded
    refine ⟨fits, ?_, ?_, ?_⟩
    · obtain ⟨event, member, last, shows, seen⟩ := History.exists_findSome?_append uploaded
        (DeviceEvent.block?_eq_some.mpr rfl) w.binder.device.history
      obtain rfl := DeviceEvent.block?_eq_some.mp shows
      -- Whatever is uploaded during the binding is its result.
      have isBlock := (calls.uploaded last member).symm.trans succeeded
      injection isBlock with isBlock
      rw [← isBlock]
      exact (congrArg History.block? history).trans seen
    · intro slot table listed
      obtain ⟨_, member⟩ := allCurves slot table listed
      obtain ⟨event, member, texture, shows, seen⟩ := History.exists_findSome?_append member
        (DeviceEvent.curvesAt?_eq_some.mpr rfl) w.binder.device.history
      obtain rfl := DeviceEvent.curvesAt?_eq_some.mp shows
      obtain ⟨found, isListed, cached⟩ := calls.curves slot texture member
      obtain rfl : found = table := Option.some.inj (isListed.symm.trans listed)
      exact ⟨texture, (congrArg (History.curvesAt? · slot) history).trans seen,
        ownCurves listed cached⟩
    · intro table listed
      obtain ⟨_, member⟩ := allCubes table listed
      obtain ⟨event, member, texture, shows, seen⟩ := History.exists_findSome?_append member
        (DeviceEvent.cube?_eq_some.mpr rfl) w.binder.device.history
      obtain rfl := DeviceEvent.cube?_eq_some.mp shows
      obtain ⟨found, only, cached⟩ := calls.cube texture member
      rw [only] at listed
      obtain rfl := List.mem_singleton.mp listed
      exact ⟨only, texture, (congrArg History.cube? history).trans seen, ownCube only cached⟩

/-- A table is made, bound, and forgotten; once its texture is dropped, another table is made where
it was. -/
def reusedAddress : Workspace Single (Observed Single Recorder Nat) (Created Nat) :=
  let gone := (ofDevice ⟨.start, []⟩).defineCurvesAt "old" (.identity 2) 0
  let bound := (gone.bind Recorder.device.observed (Binder.curvesPipeline ⟨0, 0, .identity 2⟩)).2
  ((bound.forgetTable "old").purge).defineCurvesAt "new" (.power 2 2) 0

theorem run_reusedAddress :
    Relation.ReflTransGen (Step Recorder.device.observed keepsHistory) (.ofDevice ⟨.start, []⟩)
      reusedAddress := by
  have holds : ((ofDevice ⟨.start, []⟩).defineCurvesAt "old" (.identity 2) 0 :
      Workspace Single (Observed Single Recorder Nat) (Created Nat)).Holds
        (Binder.curvesPipeline ⟨0, 0, .identity 2⟩) :=
    ⟨List.Subset.refl _, List.nil_subset _⟩
  exact .tail (.tail (.tail (.tail (.tail .refl (.defineCurves _ _ (by decide))) (.bind holds))
    (.forgetTable "old")) .purge) (.defineCurves _ _ (by decide))

theorem bind_textures_reusedAddress : ∃ block next,
    reusedAddress.bind Recorder.device.observed (Binder.curvesPipeline ⟨1, 0, .power 2 2⟩) =
        (.ok block, next) ∧
      ∃ texture, History.curvesAt? next.binder.device.history 0 = some texture ∧
        History.IsCurvesTexture next.binder.device.history ⟨1, 0, .power 2 2⟩ texture := by
  have holds : reusedAddress.Holds (Binder.curvesPipeline ⟨1, 0, .power 2 2⟩) :=
    ⟨List.Subset.refl _, List.nil_subset _⟩
  obtain ⟨block, next, bound⟩ : ∃ block next,
      reusedAddress.bind Recorder.device.observed (Binder.curvesPipeline ⟨1, 0, .power 2 2⟩) =
        (.ok block, next) := ⟨_, _, rfl⟩
  obtain ⟨_, _, _, _, _, complete⟩ := bind_textures run_reusedAddress holds bound
  exact ⟨block, next, bound, (complete block rfl).2.2.1 0 _ rfl⟩

end Workspace

end DisplayColor
