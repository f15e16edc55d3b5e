import Mathlib.Data.Set.Insert
import DisplayColor.Proofs.Device.Lifetimes

/-! # Textures are made once

A texture is made when a table is bound and none is cached for it, so a table can only be given two
textures if the cache loses the first.  A binding never takes a texture away, also when it fails.  A
purge does, and it takes those whose tables have no owner but the cache.  Then nobody can bind such
a table any more, and its number is not given to another one.

`MadeOnce` is the invariant that this amounts to, for both kinds of tables: a table from which a
texture was made is cached, or it is gone for good.  The steps are those of a workspace that goes on
using one binder. -/

namespace DisplayColor

variable {α σ τ β : Type}

/-! ## The tables of a history -/

namespace DeviceEvent

def curvesMade? : DeviceEvent α τ → Option (Shared (CurveLut α))
  | createdCurves table _ => some table
  | _ => none

def cubeMade? : DeviceEvent α τ → Option (Shared (CubeLut α))
  | createdCube table _ => some table
  | _ => none

end DeviceEvent

namespace History

/-- The curve tables from which textures were made, once for each texture. -/
def curvesMade (history : List (DeviceEvent α τ)) : List (Shared (CurveLut α)) :=
  history.filterMap DeviceEvent.curvesMade?

/-- The cube tables from which textures were made, once for each texture. -/
def cubesMade (history : List (DeviceEvent α τ)) : List (Shared (CubeLut α)) :=
  history.filterMap DeviceEvent.cubeMade?

section Shown

variable {ε γ κ : Type} {view : ε → Option γ} {key : γ → κ}

/-- Two events do not show things with the same key. -/
def AreShownApart (view : ε → Option γ) (key : γ → κ) (first second : ε) : Prop :=
  ∀ x, view first = some x → ∀ y, view second = some y → key x ≠ key y

instance : Std.Symm (AreShownApart view key) where
  symm _ _ apart y showsY x showsX := (apart x showsX y showsY).symm

theorem nodup_iff_areShownApart {events : List ε} :
    ((events.filterMap view).map key).Nodup ↔ events.Pairwise (AreShownApart view key) := by
  rw [List.Nodup, List.pairwise_map, List.pairwise_filterMap]
  rfl

/-- Where all things that are shown have different keys, an event is known by what it shows. -/
theorem eq_of_shown {events : List ε} (nodup : ((events.filterMap view).map key).Nodup)
    {first second : ε} {shown : γ} (firstMember : first ∈ events) (secondMember : second ∈ events)
    (firstShows : view first = some shown) (secondShows : view second = some shown) :
    first = second := by
  by_contra distinct
  have apart := (nodup_iff_areShownApart.mp nodup).forall firstMember secondMember distinct
  exact apart shown firstShows shown secondShows rfl

end Shown

end History

/-! ## Tables of one kind -/

/-- The view shows the table of every texture of one kind that is made, and nothing else. -/
def TableEvents.AreShownBy (events : TableEvents α τ β)
    (made? : DeviceEvent α τ → Option (Shared β)) : Prop :=
  ∀ event table, made? event = some table ↔ ∃ texture, event = events.made table texture

namespace TableEvents

theorem areShownBy_curvesMade? :
    (curves : TableEvents α τ (CurveLut α)).AreShownBy DeviceEvent.curvesMade? := by
  intro event table
  cases event <;> simp [DeviceEvent.curvesMade?, curves]

theorem areShownBy_cubeMade? :
    (cubes : TableEvents α τ (CubeLut α)).AreShownBy DeviceEvent.cubeMade? := by
  intro event table
  cases event <;> simp [DeviceEvent.cubeMade?, cubes]

namespace AreShownBy

variable {events : TableEvents α τ β} {made? : DeviceEvent α τ → Option (Shared β)}

theorem made (shown : events.AreShownBy made?) (table : Shared β) (texture : Created τ) :
    made? (events.made table texture) = some table := (shown _ table).mpr ⟨texture, rfl⟩

theorem bound (shown : events.AreShownBy made?) (slot : Nat) (texture : Created τ) :
    made? (events.bound slot texture) = none := by
  refine Option.eq_none_iff_forall_ne_some.mpr ?_
  intro table shows
  obtain ⟨created, same⟩ := (shown _ table).mp shows
  -- To make a texture is to create one, and to bind one is not.
  have creation := congrArg DeviceEvent.creation? same
  rw [events.creation_bound, events.creation_made] at creation
  cases creation

end AreShownBy

end TableEvents

/-- How many references to a table there are in a list. -/
def Shared.references (table : Shared β) (all : List (Shared β)) : Nat := all.countP table.same

/-- Every table of one kind from which a texture was made is still cached, or nobody will ever hold
it again.  Cached tables have different addresses, and all tables have different serial numbers. -/
structure MadeOnce (held : List (Shared β)) (cache : TextureCache β τ) (made : List (Shared β)) :
    Prop where
  serials : Set.InjOn Shared.serial {table | table ∈ held ++ cache.tables}
  addresses : (cache.tables.map Shared.address).Nodup
  kept : ∀ table ∈ made, table ∈ cache.tables ∨ ∀ other ∈ held, other.serial ≠ table.serial
  once : (made.map Shared.serial).Nodup

namespace MadeOnce

variable {held fewer more made : List (Shared β)} {cache : TextureCache β τ}

theorem empty : MadeOnce ([] : List (Shared β)) (.empty : TextureCache β τ) [] where
  serials _ member := (List.not_mem_nil member).elim
  addresses := List.nodup_nil
  kept _ member := (List.not_mem_nil member).elim
  once := List.nodup_nil

theorem of_subset (madeOnce : MadeOnce held cache made) (subset : fewer ⊆ held) :
    MadeOnce fewer cache made where
  serials := madeOnce.serials.mono (List.append_subset.mpr
    ⟨List.subset_append_of_subset_left _ subset, List.subset_append_right ..⟩)
  addresses := madeOnce.addresses
  kept table member := (madeOnce.kept table member).imp_right fun gone other isHeld =>
    gone other (subset isHeld)
  once := madeOnce.once

/-- A new table has a number that none has had before. -/
theorem define (madeOnce : MadeOnce held cache made) {serial address : Nat} {new : β}
    (living : ∀ table ∈ held ++ cache.tables, table.serial < serial)
    (past : ∀ table ∈ made, table.serial < serial)
    (added : more ⊆ ⟨serial, address, new⟩ :: held) : MadeOnce more cache made where
  serials := by
    have known : {table | table ∈ more ++ cache.tables} ⊆
        insert ⟨serial, address, new⟩ {table | table ∈ held ++ cache.tables} := by
      intro table member
      obtain isHeld | cached := List.mem_append.mp member
      · exact (List.mem_cons.mp (added isHeld)).imp_right (List.mem_append_left _)
      · exact .inr (List.mem_append_right _ cached)
    have unknown : ⟨serial, address, new⟩ ∉ {table | table ∈ held ++ cache.tables} :=
      fun member => Nat.lt_irrefl serial (living _ member)
    refine Set.InjOn.mono known ((Set.injOn_insert unknown).mpr ⟨madeOnce.serials, ?_⟩)
    rintro ⟨table, member, same⟩
    exact Nat.ne_of_lt (living table member) same
  addresses := madeOnce.addresses
  kept table member := by
    refine (madeOnce.kept table member).imp_right ?_
    intro gone other isHeld
    cases added isHeld with
    | head => exact (Nat.ne_of_lt (past table member)).symm
    | tail _ isHeld => exact gone other isHeld
  once := madeOnce.once

theorem purge (madeOnce : MadeOnce held cache made) {isHeld : Shared β → Bool}
    (owned : ∀ table ∈ held, isHeld table) : MadeOnce held (cache.purge isHeld) made := by
  have fewer : (cache.purge isHeld).tables.Sublist cache.tables := List.filter_sublist.map _
  refine ⟨madeOnce.serials.mono (List.append_subset.mpr ⟨List.subset_append_left ..,
    List.subset_append_of_subset_right _ fewer.subset⟩), (fewer.map _).nodup madeOnce.addresses,
    ?_, madeOnce.once⟩
  intro table member
  obtain cached | gone := madeOnce.kept table member
  · cases stays : isHeld table with
    | true =>
      obtain ⟨entry, isEntry, rfl⟩ := List.mem_map.mp cached
      exact .inl (List.mem_map_of_mem (List.mem_filter.mpr ⟨isEntry, stays⟩))
    | false =>
      -- The texture is dropped, so the table has no other owner and dies with it.
      refine .inr ?_
      intro other otherHeld same
      have isTable : other = table := madeOnce.serials (List.mem_append_left _ otherHeld)
        (List.mem_append_right _ cached) same
      have isOwned := owned other otherHeld
      rw [isTable, stays] at isOwned
      cases isOwned
  · exact .inr gone

/-- A texture is made for a table that is held and for which none is cached. -/
theorem insert (madeOnce : MadeOnce held cache made) {table : Shared β} (texture : τ)
    (isHeld : table ∈ held) (missing : cache.find? table = none) :
    MadeOnce held (cache.insert table texture) (table :: made) := by
  have uncached (other : Shared β) (cached : other ∈ cache.tables) :
      other.address ≠ table.address := by
    obtain ⟨entry, member, rfl⟩ := List.mem_map.mp cached
    exact TextureCache.address_ne_of_find?_eq_none missing member
  refine ⟨?_, ?_, ?_, ?_⟩
  · refine madeOnce.serials.mono (List.append_subset.mpr ⟨List.subset_append_left .., ?_⟩)
    exact List.cons_subset.mpr ⟨List.mem_append_left _ isHeld, List.subset_append_right ..⟩
  · refine List.nodup_cons.mpr ⟨?_, madeOnce.addresses⟩
    intro member
    obtain ⟨other, cached, same⟩ := List.mem_map.mp member
    exact uncached other cached same
  · intro other member
    obtain rfl | earlier := List.mem_cons.mp member
    · exact .inl (List.mem_cons_self ..)
    · exact (madeOnce.kept other earlier).imp_left (List.mem_cons_of_mem _)
  · refine List.nodup_cons.mpr ⟨?_, madeOnce.once⟩
    intro member
    obtain ⟨other, isMade, same⟩ := List.mem_map.mp member
    obtain cached | gone := madeOnce.kept other isMade
    · -- Then the texture of the table would have been found.
      have isTable : other = table := madeOnce.serials (List.mem_append_right _ cached)
        (List.mem_append_left _ isHeld) same
      exact uncached other cached (congrArg Shared.address isTable)
    · exact gone table isHeld same.symm

end MadeOnce

namespace TablesCoherent

variable {events : TableEvents α τ β} {held : List (Shared β)} {shelf : Shelf α τ β}
  {tablesMade : Nat}

/-- Every table from which a texture was made has an earlier number than the next table. -/
theorem made_serial_lt (coherent : TablesCoherent events held shelf tablesMade)
    {made? : DeviceEvent α τ → Option (Shared β)} (shown : events.AreShownBy made?)
    {table : Shared β} (member : table ∈ shelf.history.filterMap made?) :
    table.serial < tablesMade := by
  obtain ⟨event, member, shows⟩ := List.mem_filterMap.mp member
  obtain ⟨texture, rfl⟩ := (shown event table).mp shows
  exact coherent.gone table texture member

/-- To have an owner at its address is to have an owner. -/
theorem exists_same_iff (coherent : TablesCoherent events held shelf tablesMade)
    {entry : CachedTexture β (Created τ)} (cached : entry ∈ shelf.cache.entries) :
    (∃ table ∈ held, entry.table.same table) ↔ entry.table ∈ held := by
  refine ⟨?_, fun isHeld => ⟨entry.table, isHeld, by simp [Shared.same]⟩⟩
  rintro ⟨table, isHeld, same⟩
  have isTable : entry.table = table :=
    coherent.apart _ (List.mem_append_right _ (List.mem_map_of_mem cached)) _
      (List.mem_append_left _ isHeld) (by simpa [Shared.same] using same)
  rw [isTable]
  exact isHeld

theorem mem_purge_iff (coherent : TablesCoherent events held shelf tablesMade)
    (entry : CachedTexture β (Created τ)) :
    entry ∈ (shelf.cache.purge fun table => held.any table.same).entries ↔
      entry ∈ shelf.cache.entries ∧ entry.table ∈ held := by
  simp only [TextureCache.purge, List.mem_filter, List.any_eq_true]
  exact and_congr_right coherent.exists_same_iff

/-- The cache has one reference to each table that is cached, so any other is one of an owner. -/
theorem mem_held_iff (coherent : TablesCoherent events held shelf tablesMade)
    (addresses : (shelf.cache.tables.map Shared.address).Nodup)
    {entry : CachedTexture β (Created τ)} (cached : entry ∈ shelf.cache.entries) :
    entry.table ∈ held ↔ 1 < entry.table.references (held ++ shelf.cache.tables) := by
  have isTable : entry.table ∈ shelf.cache.tables := List.mem_map_of_mem cached
  have byAddress : entry.table.same = (· == entry.table.address) ∘ Shared.address :=
    funext fun _ => BEq.comm
  have inCache : shelf.cache.tables.countP entry.table.same = 1 := by
    rw [byAddress, ← List.countP_map]
    exact List.count_eq_one_of_mem addresses (List.mem_map_of_mem isTable)
  rw [Shared.references, List.countP_append, inCache, ← coherent.exists_same_iff cached,
    ← List.countP_pos_iff]
  omega

/-- What was made for a table that is held is found for it. -/
theorem find?_of_made (coherent : TablesCoherent events held shelf tablesMade)
    {made? : DeviceEvent α τ → Option (Shared β)} (shown : events.AreShownBy made?)
    (madeOnce : MadeOnce held shelf.cache (shelf.history.filterMap made?))
    {table : Shared β} {texture : Created τ} (isHeld : table ∈ held)
    (made : events.made table texture ∈ shelf.history) :
    shelf.cache.find? table = some texture := by
  have isMade : table ∈ shelf.history.filterMap made? :=
    List.mem_filterMap.mpr ⟨_, made, shown.made table texture⟩
  obtain cached | gone := madeOnce.kept table isMade
  · obtain ⟨entry, member, isTable⟩ := List.mem_map.mp cached
    cases search : shelf.cache.find? table with
    | none =>
      exact absurd (congrArg Shared.address isTable)
        (TextureCache.address_ne_of_find?_eq_none search member)
    | some other =>
      -- Two textures of the table would have been made by two calls.
      have sameCall := History.eq_of_shown madeOnce.once
        (coherent.created_of_find? isHeld search) made (shown.made table other)
        (shown.made table texture)
      have sameTexture := congrArg DeviceEvent.creation? sameCall
      rw [events.creation_made, events.creation_made] at sameTexture
      exact sameTexture
  · exact absurd rfl (gone table isHeld)

/-- A purge keeps the textures of tables with an owner beside the cache, and no others, which is the
same as to count references.  What was made for a table with an owner is found for it.  No table is
given two textures. -/
theorem textures_kept (coherent : TablesCoherent events held shelf tablesMade)
    {made? : DeviceEvent α τ → Option (Shared β)} (shown : events.AreShownBy made?)
    (madeOnce : MadeOnce held shelf.cache (shelf.history.filterMap made?)) :
    (∀ entry, entry ∈ (shelf.cache.purge fun table => held.any table.same).entries ↔
      entry ∈ shelf.cache.entries ∧ entry.table ∈ held) ∧
    (∀ entry ∈ shelf.cache.entries,
      entry.table ∈ held ↔ 1 < entry.table.references (held ++ shelf.cache.tables)) ∧
    (∀ table texture, table ∈ held → events.made table texture ∈ shelf.history →
      shelf.cache.find? table = some texture) ∧
    ∀ serial, ((shelf.history.filterMap made?).map Shared.serial).count serial ≤ 1 :=
  ⟨coherent.mem_purge_iff, fun _ => coherent.mem_held_iff madeOnce.addresses,
    fun _ _ => coherent.find?_of_made shown madeOnce, List.nodup_iff_count_le_one.mp madeOnce.once⟩

end TablesCoherent

/-! ## Bindings -/

namespace TablesBound

variable {events : TableEvents α τ β} {slot : Nat} {tables held : List (Shared β)}
  {before after : Shelf α τ β} {result : Except String Unit}

/-- Where the calls for tables of one kind are not shown, the other kind does not change. -/
theorem filterMap_history {γ : Type} {view : DeviceEvent α τ → Option γ}
    (bound : TablesBound events slot tables before result after)
    (made : ∀ table texture, view (events.made table texture) = none)
    (given : ∀ slot texture, view (events.bound slot texture) = none) :
    after.history.filterMap view = before.history.filterMap view := by
  induction bound with
  | done => rfl
  | refused _ => rfl
  | found _ _ inductionHypothesis =>
    exact inductionHypothesis.trans (List.filterMap_cons_none (given ..))
  | created _ _ _ inductionHypothesis =>
    exact inductionHypothesis.trans ((List.filterMap_cons_none (given ..)).trans
      (List.filterMap_cons_none (made ..)))

theorem madeOnce {made? : DeviceEvent α τ → Option (Shared β)}
    (bound : TablesBound events slot tables before result after)
    (shown : events.AreShownBy made?) (listed : tables ⊆ held)
    (madeOnce : MadeOnce held before.cache (before.history.filterMap made?)) :
    MadeOnce held after.cache (after.history.filterMap made?) := by
  induction bound with
  | done => exact madeOnce
  | refused _ => exact madeOnce
  | found _ _ inductionHypothesis =>
    refine inductionHypothesis (List.cons_subset.mp listed).2 ?_
    rw [List.filterMap_cons_none (shown.bound ..)]
    exact madeOnce
  | created missing _ _ inductionHypothesis =>
    obtain ⟨isHeld, listed⟩ := List.cons_subset.mp listed
    refine inductionHypothesis listed ?_
    rw [List.filterMap_cons_none (shown.bound ..), List.filterMap_cons_some (shown.made ..)]
    exact madeOnce.insert _ isHeld missing

end TablesBound

/-- `MadeOnce` for the tables of both kinds. -/
structure Binder.MakesOnce (binder : Binder α (Observed α σ τ) (Created τ))
    (curvesHeld : List (Shared (CurveLut α))) (cubesHeld : List (Shared (CubeLut α))) : Prop where
  curves : MadeOnce curvesHeld binder.curves (History.curvesMade binder.device.history)
  cubes : MadeOnce cubesHeld binder.cubes (History.cubesMade binder.device.history)

section Bound

variable {before after : Binder α (Observed α σ τ) (Created τ)}
  {curvesHeld : List (Shared (CurveLut α))} {cubesHeld : List (Shared (CubeLut α))}

theorem TexturesBound.makesOnce {tables : BoundTables α} {result : Except String Unit}
    (bound : TexturesBound tables before result after) (curvesListed : tables.curves ⊆ curvesHeld)
    (cubesListed : tables.cubes ⊆ cubesHeld) (once : before.MakesOnce curvesHeld cubesHeld) :
    after.MakesOnce curvesHeld cubesHeld := by
  have afterCurves {middle : Binder α (Observed α σ τ) (Created τ)} {result : Except String Unit}
      (curves : TablesBound .curves 0 tables.curves before.curveShelf result middle.curveShelf)
      (keptCubes : middle.cubes = before.cubes) : middle.MakesOnce curvesHeld cubesHeld := by
    have noCubes : History.cubesMade middle.device.history =
        History.cubesMade before.device.history :=
      curves.filterMap_history (fun _ _ => rfl) fun _ _ => rfl
    refine ⟨curves.madeOnce TableEvents.areShownBy_curvesMade? curvesListed once.curves, ?_⟩
    rw [keptCubes, noCubes]
    exact once.cubes
  cases bound with
  | curvesRefused curves keptCubes => exact afterCurves curves keptCubes
  | @cubes middle _ _ curves keptCubes cubes keptCurves =>
    obtain ⟨curvesOnce, cubesOnce⟩ := afterCurves curves keptCubes
    have noCurves : History.curvesMade after.device.history =
        History.curvesMade middle.device.history :=
      cubes.filterMap_history (fun _ _ => rfl) fun _ _ => rfl
    refine ⟨?_, cubes.madeOnce TableEvents.areShownBy_cubeMade? cubesListed cubesOnce⟩
    rw [keptCurves, noCurves]
    exact curvesOnce

theorem PipelineBound.makesOnce [Scalar α] {p : Pipeline α}
    {result : Except BindError (UniformBlock α)} (bound : PipelineBound p before result after)
    (curvesListed : (BoundTables.ofPipeline p).curves ⊆ curvesHeld)
    (cubesListed : (BoundTables.ofPipeline p).cubes ⊆ cubesHeld)
    (once : before.MakesOnce curvesHeld cubesHeld) : after.MakesOnce curvesHeld cubesHeld := by
  cases bound with
  | unfit _ => exact once
  | refused _ textures => exact textures.makesOnce curvesListed cubesListed once
  | notUploaded _ textures =>
    obtain ⟨curves, cubes⟩ := textures.makesOnce curvesListed cubesListed once
    exact ⟨curves, cubes⟩
  | uploaded _ textures =>
    -- An upload shows in the history, but it makes no texture.
    obtain ⟨curves, cubes⟩ := textures.makesOnce curvesListed cubesListed once
    exact ⟨curves, cubes⟩

end Bound

/-! ## Runs with one binder -/

namespace Workspace

/-- What can happen to a workspace that goes on using its binder. -/
inductive Use [Scalar α] (gpu : Device α σ τ) (touched : σ → σ → Prop) (w : Workspace α σ τ) :
    Workspace α σ τ → Prop
  | defineCurves (name : String) (table : CurveLut α) {address : Nat}
      (free : address ∉ w.addresses) : Use gpu touched w (w.defineCurvesAt name table address)
  | defineCube (name : String) (table : CubeLut α) {address : Nat} (free : address ∉ w.addresses) :
      Use gpu touched w (w.defineCubeAt name table address)
  | forgetTable (name : String) : Use gpu touched w (w.forgetTable name)
  | setPipeline (name : String) {p : Pipeline α} (holds : w.Holds p) :
      Use gpu touched w (w.setPipeline name p)
  | forgetPipeline (name : String) : Use gpu touched w (w.forgetPipeline name)
  | bind {p : Pipeline α} (holds : w.Holds p) : Use gpu touched w (w.bind gpu p).2
  | purge : Use gpu touched w w.purge
  | touch {device : σ} (allowed : touched w.binder.device device) :
      Use gpu touched w (w.withDevice device)

theorem any_same_of_mem {held : List (Shared β)} {table : Shared β} (member : table ∈ held) :
    held.any table.same :=
  List.any_eq_true.mpr ⟨table, member, by simp [Shared.same]⟩

variable [Scalar α]

theorem Use.toStep {gpu : Device α σ τ} {touched : σ → σ → Prop} {w next : Workspace α σ τ}
    (use : Use gpu touched w next) : Step gpu touched w next := by
  cases use with
  | defineCurves name table free => exact .defineCurves name table free
  | defineCube name table free => exact .defineCube name table free
  | forgetTable name => exact .forgetTable name
  | setPipeline name holds => exact .setPipeline name holds
  | forgetPipeline name => exact .forgetPipeline name
  | bind holds => exact .bind holds
  | purge => exact .purge
  | touch allowed => exact .touch allowed

variable {gpu : Device α σ τ} {w next : Workspace α (Observed α σ τ) (Created τ)}

theorem Use.makesOnce (use : Use gpu.observed keepsHistory w next) (coherent : w.IsCoherent)
    (once : w.binder.MakesOnce w.heldCurves w.heldCubes) :
    next.binder.MakesOnce next.heldCurves next.heldCubes := by
  obtain ⟨curves, cubes⟩ := once
  cases use with
  | @defineCurves name table address _ =>
    have new := curves.define coherent.curves.living
      (fun _ => coherent.curves.made_serial_lt TableEvents.areShownBy_curvesMade?)
      (w.heldCurves_defineCurvesAt name table address)
    exact ⟨new, cubes⟩
  | @defineCube name table address _ =>
    have new := cubes.define coherent.cubes.living
      (fun _ => coherent.cubes.made_serial_lt TableEvents.areShownBy_cubeMade?)
      (w.heldCubes_defineCubeAt name table address)
    exact ⟨curves, new⟩
  | forgetTable name =>
    obtain ⟨fewerCurves, fewerCubes⟩ := w.held_forgetTable name
    exact ⟨curves.of_subset fewerCurves, cubes.of_subset fewerCubes⟩
  | setPipeline name holds =>
    obtain ⟨sameCurves, sameCubes⟩ := w.held_setPipeline name holds
    exact ⟨curves.of_subset sameCurves, cubes.of_subset sameCubes⟩
  | forgetPipeline name =>
    obtain ⟨fewerCurves, fewerCubes⟩ := w.held_forgetPipeline name
    exact ⟨curves.of_subset fewerCurves, cubes.of_subset fewerCubes⟩
  | @bind p holds =>
    exact (w.binder.pipelineBound_bind gpu p).makesOnce holds.curves holds.cubes ⟨curves, cubes⟩
  | purge =>
    exact ⟨curves.purge fun _ => any_same_of_mem, cubes.purge fun _ => any_same_of_mem⟩
  | @touch device allowed =>
    have same : device.history = w.binder.device.history := allowed
    refine ⟨?_, ?_⟩
    · rw [← same] at curves
      exact curves
    · rw [← same] at cubes
      exact cubes

/-- A run with one binder is a run. -/
theorem isCoherent_of_use {device : σ}
    (run : Relation.ReflTransGen (Use gpu.observed keepsHistory) (.ofDevice ⟨device, []⟩) w) :
    w.IsCoherent := isCoherent (Relation.ReflTransGen.mono (fun _ _ => Use.toStep) _ _ run)

theorem makesOnce {device : σ}
    (run : Relation.ReflTransGen (Use gpu.observed keepsHistory) (.ofDevice ⟨device, []⟩) w) :
    w.binder.MakesOnce w.heldCurves w.heldCubes := by
  induction run with
  | refl => exact ⟨.empty, .empty⟩
  | tail run use inductionHypothesis =>
    exact use.makesOnce (isCoherent_of_use run) inductionHypothesis

theorem Use.exists_observed {plain : Workspace α σ τ}
    (use : Use gpu (fun _ _ => True) w.erased plain) :
    ∃ next, Use gpu.observed keepsHistory w next ∧ next.erased = plain := by
  cases use with
  | defineCurves name table free =>
    rw [addresses_erased] at free
    exact ⟨_, .defineCurves name table free, rfl⟩
  | defineCube name table free =>
    rw [addresses_erased] at free
    exact ⟨_, .defineCube name table free, rfl⟩
  | forgetTable name => exact ⟨_, .forgetTable name, rfl⟩
  | setPipeline name holds => exact ⟨_, .setPipeline name ⟨holds.curves, holds.cubes⟩, rfl⟩
  | forgetPipeline name => exact ⟨_, .forgetPipeline name, rfl⟩
  | @bind p holds =>
    exact ⟨_, .bind ⟨holds.curves, holds.cubes⟩, (congrArg Prod.snd (w.bind_erased gpu p)).symm⟩
  | purge => exact ⟨_, .purge, w.purge_erased⟩
  | @touch device _ =>
    have same : keepsHistory w.binder.device ⟨device, w.binder.device.history⟩ := rfl
    exact ⟨_, .touch same, rfl⟩

/-- Whatever happens to a workspace with one binder, the device could have been observed. -/
theorem exists_observed_of_use {device : σ} {plain : Workspace α σ τ}
    (run : Relation.ReflTransGen (Use gpu fun _ _ => True) (.ofDevice device) plain) :
    ∃ w, Relation.ReflTransGen (Use gpu.observed keepsHistory) (.ofDevice ⟨device, []⟩) w ∧
      w.erased = plain := by
  induction run with
  | refl => exact ⟨_, .refl, rfl⟩
  | tail _ use inductionHypothesis =>
    obtain ⟨w, run, rfl⟩ := inductionHypothesis
    obtain ⟨next, use, same⟩ := use.exists_observed
    exact ⟨next, run.tail use, same⟩

/-- Whatever happens to a workspace, a purge drops the textures whose tables neither a name nor a
pipeline refers to, and no others: those to whose table there is no reference but the cached one.  A
texture that was made for a table that is still referred to is found for this table.  No table is
given a texture twice, however often the device refuses one. -/
theorem textures_kept_and_made_once {device : σ}
    (run : Relation.ReflTransGen (Use gpu.observed keepsHistory) (.ofDevice ⟨device, []⟩) w) :
    ((∀ entry, entry ∈ w.purge.binder.curves.entries ↔
        entry ∈ w.binder.curves.entries ∧ entry.table ∈ w.heldCurves) ∧
      (∀ entry ∈ w.binder.curves.entries, entry.table ∈ w.heldCurves ↔
        1 < entry.table.references (w.heldCurves ++ w.binder.curves.tables)) ∧
      (∀ table texture, table ∈ w.heldCurves →
        .createdCurves table texture ∈ w.binder.device.history →
          w.binder.curves.find? table = some texture) ∧
      ∀ serial, ((History.curvesMade w.binder.device.history).map Shared.serial).count serial ≤ 1) ∧
    ((∀ entry, entry ∈ w.purge.binder.cubes.entries ↔
        entry ∈ w.binder.cubes.entries ∧ entry.table ∈ w.heldCubes) ∧
      (∀ entry ∈ w.binder.cubes.entries, entry.table ∈ w.heldCubes ↔
        1 < entry.table.references (w.heldCubes ++ w.binder.cubes.tables)) ∧
      (∀ table texture, table ∈ w.heldCubes →
        .createdCube table texture ∈ w.binder.device.history →
          w.binder.cubes.find? table = some texture) ∧
      ∀ serial, ((History.cubesMade w.binder.device.history).map Shared.serial).count serial ≤ 1) := by
  have coherent := isCoherent_of_use run
  have once := makesOnce run
  exact ⟨coherent.curves.textures_kept TableEvents.areShownBy_curvesMade? once.curves,
    coherent.cubes.textures_kept TableEvents.areShownBy_cubeMade? once.cubes⟩

/-- A table is bound, the cache is purged, and the table is bound again. -/
def boundAgain : Workspace Single (Observed Single Recorder Nat) (Created Nat) :=
  let named := (ofDevice ⟨.start, []⟩).defineCurvesAt "table" (.identity 2) 0
  let bound := (named.bind Recorder.device.observed (Binder.curvesPipeline ⟨0, 0, .identity 2⟩)).2
  (bound.purge.bind Recorder.device.observed (Binder.curvesPipeline ⟨0, 0, .identity 2⟩)).2

theorem run_boundAgain :
    Relation.ReflTransGen (Use Recorder.device.observed keepsHistory) (.ofDevice ⟨.start, []⟩)
      boundAgain := by
  have holds : ((ofDevice ⟨.start, []⟩).defineCurvesAt "table" (.identity 2) 0 :
      Workspace Single (Observed Single Recorder Nat) (Created Nat)).Holds
        (Binder.curvesPipeline ⟨0, 0, .identity 2⟩) :=
    ⟨List.Subset.refl _, List.nil_subset _⟩
  exact .tail (.tail (.tail (.tail .refl (.defineCurves _ _ (by decide)))
    (.bind ⟨holds.curves, holds.cubes⟩)) .purge) (.bind ⟨holds.curves, holds.cubes⟩)

/-- The texture is still the first one, and it is the only one. -/
theorem textures_kept_and_made_once_boundAgain :
    boundAgain.binder.curves.find? ⟨0, 0, .identity 2⟩ = some ⟨0, 1⟩ ∧
      ((History.curvesMade boundAgain.binder.device.history).map Shared.serial).count 0 ≤ 1 := by
  obtain ⟨⟨_, _, found, once⟩, _⟩ := textures_kept_and_made_once run_boundAgain
  have isHeld : ⟨0, 0, .identity 2⟩ ∈ boundAgain.heldCurves := List.mem_cons_self ..
  have made : .createdCurves ⟨0, 0, .identity 2⟩ ⟨0, 1⟩ ∈ boundAgain.binder.device.history :=
    List.mem_of_getElem? (show boundAgain.binder.device.history[4]? = some _ from rfl)
  exact ⟨found _ _ isHeld made, once 0⟩

end Workspace

end DisplayColor
