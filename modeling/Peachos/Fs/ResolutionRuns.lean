import Peachos.Fs.Resolution
import Peachos.Kernel.RoomRuns

/-! # Paths that are found

A path that leads to an entry by names that are unique in their directories, through directories
that can be loaded, is found where there is memory for what the walk loads on its way, and of that
memory only the blocks of the item that it returns stay taken (`fat16GetDirectoryEntry_finds`).
-/

namespace Peachos

open CInt Resolution Window

/-- The directory of the entry `raw` is whole on the disk: its clusters hold these entries, none of
them deleted, and the scan counts as many. -/
structure WholeDirectory (volume : FatPrivate) (drive : Nat → UInt8) (raw : List UInt8)
    (entries : List (List UInt8)) : Prop where
  subdirectory : (FatDirectoryItem.decode raw).attributes &&& fatFileSubdirectory ≠ 0
  chain : ChainDirectory volume drive (i32 (fat16GetFirstCluster (FatDirectoryItem.decode raw)))
    entries
  counted : CountedAs volume drive (FatDirectoryItem.decode raw) entries.length

/-- What an entry is one of: a file, or a directory with these entries. -/
def NodeOn (volume : FatPrivate) (drive : Nat → UInt8) (raw : List UInt8) :
    (node : Option (List (List UInt8))) → Prop
  | none => (FatDirectoryItem.decode raw).attributes &&& fatFileSubdirectory = 0
  | some entries => WholeDirectory volume drive raw entries

/-- The blocks that the item of an entry takes. -/
def nodeBlocks : (node : Option (List (List UInt8))) → Nat
  | none => 2
  | some entries => 2 + blocksFor (sizeofFatDirectoryItem * entries.length)

/-- The item has a copy of its entry, or the entries of its directory, and it has these blocks. -/
inductive NodeMade (live : List Allocation) (kernel : Kernel) (raw : List UInt8) (item : Nat) :
    (node : Option (List (List UInt8))) → (owned : Nat → Prop) → Prop
  | file {owned : Nat → Prop} (pointer : Nat)
      (present : kernel.objs item = some (.fatItem { pointer := pointer, type := fatItemTypeFile }))
      (copy : kernel.objs pointer = some (.bytes raw))
      (owns : ∀ ptr, owned ptr ↔ ptr = item ∨ ptr = pointer) :
      NodeMade live kernel raw item none owned
  | directory {entries : List (List UInt8)} {owned : Nat → Prop} (pointer : Nat)
      (value : FatDirectory) (inner : Nat → Prop)
      (present : kernel.objs item = some (.fatItem
        { pointer := pointer, type := fatItemTypeDirectory }))
      (loaded : DirectoryLoaded live kernel pointer value entries.flatten inner)
      (total : value.total = entries.length) (owns : ∀ ptr, owned ptr ↔ ptr = item ∨ inner ptr) :
      NodeMade live kernel raw item (some entries) owned

section Takes

variable {region : KernelRegion} {live : List Allocation} {kernel next : Kernel}
  {volume : FatPrivate} {raw : List UInt8} {item : Nat}

/-- A directory that is filled takes the blocks of its entries. -/
theorem fat16FillDirectory_takes (inv : KernelInvariant region live kernel)
    (held : VolumeLive live volume kernel) (sectorSize : kernel.disk.sectorSize = peachosSectorSize)
    {directory : Nat} {entry : FatDirectoryItem} {entries : List (List UInt8)}
    (scanned : ScannedFrom kernel.drive (subdirectoryStart volume entry) entries)
    (run : (fat16FillDirectory diskstreamerRead directory entry).run kernel = .ok (0, next)) :
    kernel.heap.Takes (blocksFor (sizeofFatDirectoryItem * liveCount entries)) next.heap := by
  have reads := diskstreamerRead_readsStreams
  obtain ⟨counted, count, only⟩ := @fat16GetTotalItemsForDirectory_scanned _ _ _ held sectorSize
    (u32 (fat16ClusterToSector volume (i32 (fat16GetFirstCluster entry)))) entries scanned
  have short := (liveCount_le entries).trans scanned.count_le
  rw [fat16FillDirectory, Exec.bind_of_ok held.loadPrivate_run, Exec.bind_of_ok count] at run
  obtain ⟨_, value, _, _, run⟩ := load_bind_eq_ok.mp run
  obtain ⟨there, run⟩ := store_bind_eq_ok.mp run
  obtain ⟨buffer, allocated, requested, run⟩ := Exec.bind_eq_ok.mp run
  rw [directorySize_eq short] at requested
  have taken := kmalloc_takes ((only.invariant inv).setObj there _)
    (by unfold sizeofFatDirectoryItem; omega) requested
  change counted.heap.Takes _ _ at taken
  rw [only.heap] at taken
  obtain ⟨_, value', _, _, run⟩ := load_bind_eq_ok.mp run
  obtain ⟨_, run⟩ := store_bind_eq_ok.mp run
  by_cases null : buffer = 0
  · rw [if_pos null] at run
    cases run
  rw [if_neg null] at run
  obtain ⟨⟨res, out⟩, streamed, delivered, run⟩ := Exec.bind_eq_ok.mp run
  obtain ⟨_, final, wrote, done⟩ := Exec.bind_eq_ok.mp run
  cases done
  have only' := (fat16ReadInternal_streams reads _ _ _ _ _ streamed (.refl _) delivered).1
  obtain ⟨_, _, _, rfl⟩ := writeBytes_eq_ok wrote
  have same : streamed.heap = allocated.heap := only'.heap
  change kernel.heap.Takes _ streamed.heap
  rw [same]
  exact taken

/-- The item of an entry takes its blocks. -/
theorem fat16NewFatItemForDirectoryItem_takes (inv : KernelInvariant region live kernel)
    (held : VolumeLive live volume kernel) (bounded : VolumeBounded volume kernel)
    {node : Option (List (List UInt8))} (on : NodeOn volume kernel.drive raw node)
    {owned : Nat → Prop} {live' : List Allocation} (made : NodeMade live' next raw item node owned)
    (run : (fat16NewFatItemForDirectoryItem diskstreamerRead raw).run kernel = .ok (item, next))
    (notNull : item ≠ 0) : kernel.heap.Takes (nodeBlocks node) next.heap := by
  have reads := diskstreamerRead_readsStreams
  have oneBlock : blocksFor sizeofFatItem = 1 ∧ blocksFor sizeofFatDirectoryItem = 1 := by decide
  obtain ⟨allocated, requested⟩ := fat16NewFatItemForDirectoryItem_requested run
  have taken := kmalloc_takes inv (by decide) requested
  rw [oneBlock.1] at taken
  rcases kmalloc_positive inv (show 1 ≤ sizeofFatItem by decide) (by decide) requested with
    ⟨null, _⟩ | placed
  · exact absurd null notNull
  have grown := ((Grown.refl inv).placed placed).congr fun ptr => or_iff_left not_false
  cases made with
  | file pointer present copy _ =>
      change _ &&& _ = 0 at on
      rw [fat16NewFatItemForDirectoryItem, kzalloc, Exec.bind_of_ok requested,
        if_neg placed.notNull, if_neg (not_not.mpr on)] at run
      obtain ⟨_, _, _, _, run⟩ := load_bind_eq_ok.mp run
      obtain ⟨there, run⟩ := store_bind_eq_ok.mp run
      obtain ⟨copied, cloned, clone, run⟩ := Exec.bind_eq_ok.mp run
      obtain ⟨_, _, _, _, run⟩ := load_bind_eq_ok.mp run
      obtain ⟨_, run⟩ := store_bind_eq_ok.mp run
      cases run
      rw [fat16CloneDirectoryItem, if_neg (lt_irrefl _)] at clone
      obtain ⟨reserved, requested', kept, clone⟩ := Exec.bind_eq_ok.mp clone
      have taken' := kmalloc_takes (placed.invariant.setObj there _) (by decide) kept
      rw [oneBlock.2] at taken'
      have whole : kernel.heap.Takes 2 requested'.heap := taken.trans taken'
      by_cases null : reserved = 0
      · rw [if_pos null] at clone
        cases clone
        exact whole
      · rw [if_neg null] at clone
        obtain ⟨_, _, wrote, clone⟩ := Exec.bind_eq_ok.mp clone
        cases clone
        obtain ⟨_, _, _, rfl⟩ := writeBytes_eq_ok wrote
        exact whole
  | @directory entries _ pointer value inner present loaded total owns =>
      obtain ⟨subdirectory, chain, scanned, scan, count⟩ := on
      obtain ⟨directory, middle, load⟩ : ∃ directory middle, (fat16LoadFatDirectory
          diskstreamerRead (FatDirectoryItem.decode raw)).run allocated =
            .ok (directory, middle) := by
        rw [fat16NewFatItemForDirectoryItem, kzalloc, Exec.bind_of_ok requested,
          if_neg placed.notNull, if_pos subdirectory] at run
        obtain ⟨directory, middle, load, _⟩ := Exec.bind_eq_ok.mp run
        exact ⟨directory, middle, load⟩
      obtain ⟨same, untouched⟩ := fat16NewFatItemForDirectoryItem_loads reads held subdirectory
        requested placed load inv
      rw [same] at run
      cases run
      rw [Kernel.setObj_objs_self] at present
      cases present
      have there := loaded.present
      rw [Kernel.setObj_objs_of_ne _ _ (by
        rintro rfl
        rw [Kernel.setObj_objs_self] at there
        cases there)] at there
      rcases fat16LoadFatDirectory_cases reads placed.invariant (held.grown grown) subdirectory load
        with ⟨rfl, rfl⟩ | ⟨reserved, res, _, requested', placed', fill, ⟨_, gone, _⟩ | ⟨rfl, rfl, _⟩⟩
      · rw [placed.invariant.null] at there
        cases there
      · rw [gone] at there
        cases there
      have grown' := grown.trans (((Grown.refl placed.invariant).placed placed').congr
        fun ptr => or_iff_left not_false)
      have taken' := kmalloc_takes placed.invariant (by decide) requested'
      rw [blocksFor_fatDirectory] at taken'
      rw [← grown'.drive] at scan
      have filled := fat16FillDirectory_takes placed'.invariant (held.grown grown')
        (bounded.grown grown').sectorSize scan fill
      rw [count] at filled
      exact (taken.trans taken').trans filled

end Takes

section Made

variable {region : KernelRegion} {live live' : List Allocation} {kernel next : Kernel}
  {volume : FatPrivate} {raw : List UInt8} {item lower : Nat}
  {node : Option (List (List UInt8))} {owned : Nat → Prop}

theorem NodeMade.notNull (made : NodeMade live kernel raw item node owned)
    (null : kernel.objs 0 = none) : item ≠ 0 := by
  rintro rfl
  cases made with
  | file _ present =>
      rw [null] at present
      cases present
  | directory _ _ _ present =>
      rw [null] at present
      cases present

/-- **The item of an entry is made** where there is room for it. -/
theorem NodeOn.newItem (on : NodeOn volume kernel.drive raw node)
    (inv : KernelInvariant region live kernel) (held : VolumeLive live volume kernel)
    (bounded : VolumeBounded volume kernel) (length : raw.length = sizeofFatDirectoryItem)
    (room : kernel.heap.Room lower kernel.heap.table.total)
    (enough : lower + nodeBlocks node < kernel.heap.table.total) :
    ∃ item next live' owned, (fat16NewFatItemForDirectoryItem diskstreamerRead raw).run kernel =
        .ok (item, next) ∧ Grown region live live' kernel next owned ∧
      NodeMade live' next raw item node owned ∧
      next.heap.Room (lower + nodeBlocks node) kernel.heap.table.total := by
  have reads := diskstreamerRead_readsStreams
  obtain ⟨item, next, run, live', owned, grown, made⟩ : ∃ item next,
      (fat16NewFatItemForDirectoryItem diskstreamerRead raw).run kernel = .ok (item, next) ∧
        ∃ live' owned, Grown region live live' kernel next owned ∧
          NodeMade live' next raw item node owned := by
    cases node with
    | none =>
        have few : lower + 2 < kernel.heap.table.total := enough
        obtain ⟨item, pointer, next, run, present, copy⟩ :=
          fat16NewFatItemForDirectoryItem_file inv (room.after (by omega)) length on
        obtain ⟨live', owned, grown, made⟩ :=
          fat16NewFatItemForDirectoryItem_completed reads inv held length run
        have null := grown.invariant.null
        refine ⟨item, next, run, live', owned, grown, ?_⟩
        cases made with
        | refused isNull _ =>
            rw [isNull, null] at present
            cases present
        | uncopied _ present' _ =>
            rw [present'] at present
            cases present
            rw [null] at copy
            cases copy
        | file pointer' _ present' _ owns =>
            rw [present'] at present
            cases present
            exact .file pointer present' copy owns
        | dangling _ _ present' =>
            rw [present'] at present
            cases present
        | directory _ _ _ _ _ present' =>
            rw [present'] at present
            cases present
    | some entries =>
        have few : lower + (2 + blocksFor (sizeofFatDirectoryItem * entries.length)) <
          kernel.heap.table.total := enough
        obtain ⟨item, next, value, run, ⟨pointer, present, there⟩, total, buffer⟩ :=
          on.chain.newItem inv held bounded on.subdirectory (room.grantsAfter (by omega)) on.counted
        obtain ⟨live', owned, grown, made⟩ :=
          fat16NewFatItemForDirectoryItem_completed reads inv held length run
        have null := grown.invariant.null
        refine ⟨item, next, run, live', owned, grown, ?_⟩
        cases made with
        | refused isNull _ =>
            rw [isNull, null] at present
            cases present
        | uncopied _ present' =>
            rw [present'] at present
            cases present
        | file _ _ present' =>
            rw [present'] at present
            cases present
        | dangling _ _ present' freed =>
            rw [present'] at present
            cases present
            rw [freed] at there
            cases there
        | directory pointer' value' contents inner _ present' loaded owns =>
            rw [present'] at present
            cases present
            rw [loaded.present] at there
            cases there
            rw [loaded.buffer] at buffer
            cases buffer
            exact .directory pointer value inner present' loaded total owns
  refine ⟨item, next, live', owned, run, grown, made, ?_⟩
  exact fat16NewFatItemForDirectoryItem_takes inv held bounded on made run
    (made.notNull grown.invariant.null) _ _ room enough.le

end Made

section Walk

variable {region : KernelRegion} {live live' live₁ : List Allocation}
  {start kernel found next : Kernel} {volume : FatPrivate} {raw : List UInt8}
  {path current part item lower total : Nat} {directory : FatDirectory}
  {contents name : List UInt8} {names : List (List UInt8)} {ptrs : List Nat}
  {node : Option (List (List UInt8))} {all mine add owned : Nat → Prop}

/-- Freeing an item keeps the room. -/
theorem FreesItem.room (freed : FreesItem current found next)
    (inv : KernelInvariant region live found) {upper : Nat} (room : found.heap.Room lower upper) :
    next.heap.Room lower upper := by
  rcases freed with ⟨_, rfl⟩ | ⟨_, run⟩
  · exact room
  have frees : Exec.Ensures (Roomy region lower upper) (fat16FatItemFree current)
      fun _ => True := by
    refine (load_roomy _ _).bind fun value _ => .ite (fun _ => ?_) fun _ => .ite (fun _ => ?_)
      fun _ => kfree_roomy current
    · refine @Exec.Ensures.bind _ _ _ _ _ (fun _ => True) _ _ _ ?_ fun _ _ => kfree_roomy current
      refine .ite (fun _ => .pure trivial) fun _ => (load_roomy _ _).bind fun value' _ => ?_
      refine .ite (fun _ => ?_) fun _ => kfree_roomy _
      exact (kfree_roomy _).bind fun _ _ => kfree_roomy _
    · exact (kfree_roomy _).bind fun _ _ => kfree_roomy current
  obtain ⟨⟨_, _, rest⟩, _⟩ := frees found () next ⟨live, inv, room⟩ run
  exact rest

/-- An item that was made stays while other objects are freed. -/
theorem NodeMade.of_kept {live'' : List Allocation} {gone : Nat → Prop}
    (made : NodeMade live kernel raw item node owned)
    (kept : ∀ ptr, ¬ gone ptr → next.objs ptr = kernel.objs ptr)
    (apart : ∀ ptr, gone ptr → ¬ owned ptr ∧ ∃ allocation ∈ live, allocation.ptr = ptr)
    (fewer : ∀ allocation ∈ live'', ∃ other ∈ live, other.ptr = allocation.ptr) :
    NodeMade live'' next raw item node owned := by
  have own : ∀ ptr, owned ptr → next.objs ptr = kernel.objs ptr :=
    fun ptr here => kept ptr fun there => (apart ptr there).1 here
  cases made with
  | file pointer present copy owns =>
      exact .file pointer ((own item ((owns _).mpr (.inl rfl))).trans present)
        ((own pointer ((owns _).mpr (.inr rfl))).trans copy) owns
  | @directory entries _ pointer value inner present loaded total owns =>
      refine .directory pointer value inner
        ((own item ((owns _).mpr (.inl rfl))).trans present)
        (loaded.congr (own pointer ((owns _).mpr (.inr loaded.owns))) ?_ ?_) total owns
      · by_cases empty : entries.flatten = []
        · refine kept _ fun there => ?_
          obtain ⟨_, allocation, member, same⟩ := apart _ there
          exact (loaded.unbuffered empty).2 allocation member same
        · exact own _ ((owns _).mpr (.inr ((loaded.buffered empty _).mpr (.inr rfl))))
      · intro empty allocation member same
        obtain ⟨other, member', same'⟩ := fewer allocation member
        exact (loaded.unbuffered empty).2 other member' (same'.trans same)

/-- The walk has looked one name up, found the item of its entry, and freed the item that it came
from. -/
structure NodeFound (region : KernelRegion) (live live' : List Allocation) (start kernel next : Kernel)
    (current : Nat) (directory : FatDirectory) (name raw : List UInt8) (item : Nat)
    (node : Option (List (List UInt8))) (all mine owned : Nat → Prop) : Prop where
  search : ∃ found, (fat16FindItemInDirectory diskstreamerRead directory (partBuffer name)).run
      kernel = .ok (item, found) ∧ FreesItem current found next
  grown : Grown region live live' start next fun ptr => all ptr ∧ ¬ mine ptr ∨ owned ptr
  made : NodeMade live' next raw item node owned
  fresh : ∀ ptr, all ptr → ¬ owned ptr

/-- **One name** that one entry of the directory has is found where there is room. -/
theorem Holding.finds
    (holding : Holding region live live' start kernel all mine current directory contents)
    (held : VolumeLive live volume start) (bounded : VolumeBounded volume start)
    (fits : sizeofFatDirectoryItem * directory.total.toNat ≤ contents.length)
    (named : OnlyNamed NamedAs (directory.entries contents) name raw)
    (on : NodeOn volume start.drive raw node) (size : kernel.heap.table.total = total)
    (room : kernel.heap.Room lower total) (enough : lower + nodeBlocks node < total) :
    ∃ item next live'' owned, NodeFound region live live'' start kernel next current directory name
        raw item node all mine owned ∧ next.heap.Room (lower + nodeBlocks node) total := by
  have reads := diskstreamerRead_readsStreams
  have inv := holding.grown.invariant
  have held' := held.grown holding.grown
  have bounded' := bounded.grown holding.grown
  obtain ⟨k, here, has, only⟩ := named
  obtain ⟨inside, rfl⟩ := FatDirectory.entries_getElem?.mp here
  have notEmpty : directory.total.toNat ≠ 0 := by omega
  have inHeap := holding.target.held.resolve_left notEmpty
  have others : ∀ j, j < directory.total.toNat → j ≠ k →
      ¬ Named (itemBytes contents j) (partBuffer name) := fun j before different named' =>
    different (only j _ (FatDirectory.entries_getElem?.mpr ⟨before, rfl⟩) named')
  have within : sizeofFatDirectoryItem * (k + 1) ≤ contents.length :=
    (Nat.mul_le_mul_left _ inside).trans fits
  have filled : contents ≠ [] := by
    rintro rfl
    rw [List.length_nil] at within
    unfold sizeofFatDirectoryItem at within
    omega
  rw [← holding.grown.drive] at on
  obtain ⟨item, found, live₁, owned, run, grown, made, after⟩ := on.newItem inv held' bounded'
    (length_itemBytes within) (by rwa [size]) (by rwa [size])
  obtain ⟨rest, split⟩ : ∃ rest, directory.total.toNat = k + (rest + 1) :=
    ⟨directory.total.toNat - k - 1, by omega⟩
  have search : (fat16FindItemInDirectory diskstreamerRead directory (partBuffer name)).run kernel =
      .ok (item, found) := by
    have skipped := @fat16FindItemLoop_none kernel diskstreamerRead directory contents
      (partBuffer name) holding.target.buffer 0 k 0
      (by rw [Nat.zero_add]; exact (Nat.mul_le_mul_left _ (by omega)).trans fits)
      fun j _ before => others j (by omega) (by omega)
    rw [fat16FindItemInDirectory, split, fat16FindItemLoop_last reads inv held'
      holding.target.buffer inHeap (by rw [← split]; exact fits) has
      fun j after before => others j (by omega) (by omega), Exec.bind_of_ok skipped]
    exact run
  obtain ⟨live'', next, freed, grown', _, kept⟩ := holding.frees grown filled
  have apart : ∀ ptr, mine ptr → ¬ owned ptr ∧ ∃ allocation ∈ live₁, allocation.ptr = ptr := by
    intro ptr own
    obtain ⟨allocation, member, same⟩ := holding.grown.held ptr (holding.within ptr own)
    exact ⟨fun new => grown.fresh allocation member (same ▸ new),
      allocation, grown.grown member, same⟩
  refine ⟨item, next, live'', owned, ⟨⟨found, search, freed⟩, grown'.congr fun ptr => ?_,
    made.of_kept kept apart fun allocation member => ?_, fun ptr old new => ?_⟩, ?_⟩
  · constructor
    · rintro ⟨old | new, other⟩
      · exact .inl ⟨old, other⟩
      · exact .inr new
    · rintro (⟨old, other⟩ | new)
      · exact ⟨.inl old, other⟩
      · exact ⟨.inr new, fun own => (apart ptr own).1 new⟩
  · rcases grown'.only allocation member with old | ⟨old | new, _⟩
    · exact ⟨allocation, grown.grown (holding.grown.grown old), rfl⟩
    · exact grown.heldStill (holding.grown.held _ old)
    · exact grown.held _ new
  · obtain ⟨allocation, member, same⟩ := holding.grown.held ptr old
    exact grown.fresh allocation member (same ▸ new)
  · rw [size] at after
    exact freed.room grown.invariant after

/-- Directories of whole entries have the entries of their bytes. -/
theorem FatDirectory.entries_flatten {entries : List (List UInt8)}
    (whole : ∀ raw ∈ entries, raw.length = sizeofFatDirectoryItem)
    (counted : directory.total = entries.length) : directory.entries entries.flatten = entries := by
  have item : ∀ (entries : List (List UInt8)) (k : Nat) (raw : List UInt8),
      (∀ raw ∈ entries, raw.length = sizeofFatDirectoryItem) → entries[k]? = some raw →
        itemBytes entries.flatten k = raw := by
    intro entries
    induction entries with
    | nil => exact fun _ _ _ present => nomatch present
    | cons head rest ih =>
        intro k raw whole here
        have length := whole head List.mem_cons_self
        rw [itemBytes, List.flatten_cons]
        cases k with
        | zero =>
            obtain rfl := Option.some.inj here
            rw [Nat.mul_zero, List.drop_zero, List.take_append_of_le_length length.ge,
              List.take_of_length_le length.le]
        | succ k =>
            rw [Nat.mul_succ, Nat.add_comm, ← List.drop_drop, List.drop_append_of_le_length length.ge,
              List.drop_of_length_le length.le, List.nil_append]
            exact ih k raw (fun raw member => whole raw (List.mem_cons_of_mem _ member)) here
  refine List.ext_getElem? fun k => ?_
  cases here : entries[k]? with
  | some raw =>
      have inside := (List.getElem?_eq_some_iff.mp here).1
      refine FatDirectory.entries_getElem?.mpr ⟨?_, (item entries k raw whole here).symm⟩
      rw [counted, Int.toNat_natCast]
      exact inside
  | none =>
      rw [List.getElem?_eq_none_iff] at here ⊢
      rw [FatDirectory.entries, List.length_map, List.length_range, counted, Int.toNat_natCast]
      exact here

/-- The entries of a directory on the disk are whole. -/
theorem DirectoryAt.whole {drive : Nat → UInt8} {entries : List (List UInt8)} {pos : Nat}
    (stored : DirectoryAt drive pos entries) :
    ∀ raw ∈ entries, raw.length = sizeofFatDirectoryItem := by
  intro raw member
  obtain ⟨i, here⟩ := List.mem_iff_getElem?.mp member
  rw [(stored.get here).1, length_window]

/-- The directory that the walk has found is the one that it goes on with. -/
theorem NodeMade.holding {live'' : List Allocation} {entries : List (List UInt8)}
    (made : NodeMade live'' next raw item (some entries) owned)
    (grown : Grown region live live'' start next fun ptr => all ptr ∧ ¬ mine ptr ∨ owned ptr) :
    ∃ below, DirectoryOf next item below ∧ below.total = entries.length ∧
      Holding region live live'' start next (fun ptr => all ptr ∧ ¬ mine ptr ∨ owned ptr) owned item
        below entries.flatten := by
  have notNull := made.notNull grown.invariant.null
  cases made with
  | directory pointer value inner present loaded total owns =>
      refine ⟨value, ⟨pointer, present, loaded.present⟩, total, grown, ⟨loaded.buffer, ?_⟩,
        .inr ⟨notNull, pointer, inner, present, loaded, owns⟩, fun ptr own => .inr own⟩
      by_cases empty : entries.flatten = []
      · obtain ⟨count, total', length⟩ := loaded.count
        rw [empty, List.length_nil] at length
        unfold sizeofFatDirectoryItem at length
        exact .inl (by omega)
      · exact .inr (grown.held _ (.inr ((owns _).mpr
          (.inr ((loaded.buffered empty _).mpr (.inr rfl))))))

/-- The program looks the name of the part up and goes on with the item that it finds. -/
def LooksUp (program : K Nat) (kernel : Kernel) (current : Nat) (directory : FatDirectory)
    (part count : Nat) : Prop :=
  ∀ {value name item found next}, kernel.objs part = some (.pathPart value) →
    kernel.objs value.part = some (.bytes name) →
    (fat16FindItemInDirectory diskstreamerRead directory name).run kernel = .ok (item, found) →
    FreesItem current found next → item ≠ 0 → ∃ fuel, count ≤ fuel ∧ program.run kernel =
      (fat16GetDirectoryEntryLoop diskstreamerRead fuel item value.next).run next

/-- **The rest of a path** is found from a directory on. -/
theorem Holding.finds_path (held : VolumeLive live volume start)
    (bounded : VolumeBounded volume start) (on : NodeOn volume start.drive raw node)
    {entries : List (List UInt8)} {trail : List (List (List UInt8))}
    (resolves : ResolvesBy (OnlyNamed NamedAs) (WholeDirectory volume start.drive) entries names
      trail raw) :
    ∀ {live' : List Allocation} {kernel : Kernel} {current part lower : Nat}
      {directory : FatDirectory} {contents : List UInt8} {ptrs : List Nat} {all mine : Nat → Prop}
      {program : K Nat},
      Holding region live live' start kernel all mine current directory contents →
      directory.entries contents = entries →
      sizeofFatDirectoryItem * directory.total.toNat ≤ contents.length →
      PathLive live start part names ptrs →
      LooksUp program kernel current directory part names.length →
      kernel.heap.table.total = total → kernel.heap.Room lower total →
      lower + (trail.map fun below => nodeBlocks (some below)).sum + nodeBlocks node < total →
      ∃ item last live'' owned, program.run kernel = .ok (item, last) ∧
        Grown region live live'' start last (fun ptr => all ptr ∧ ¬ mine ptr ∨ owned ptr) ∧
        NodeMade live'' last raw item node owned := by
  induction resolves with
  | last named =>
      intro live' kernel current part lower directory contents ptrs all mine program holding same fits
        pathLive looksUp size room enough
      rw [List.map_nil, List.sum_nil, Nat.add_zero] at enough
      obtain ⟨item, next, live'', owned, found, _⟩ :=
        holding.finds held bounded fits (same ▸ named) on size room enough
      obtain ⟨middle, search, freed⟩ := found.search
      obtain ⟨_, _, buffer, after, _, cons⟩ := pathLive.uncons pathLive.parts.1
      cases cons.names
      obtain ⟨fuel, some, run⟩ := looksUp ((holding.grown.keeps cons.partHeld).obj cons.part rfl)
        ((holding.grown.keeps cons.nameHeld).obj cons.name rfl) search freed
        (found.made.notNull found.grown.invariant.null)
      obtain ⟨less, rfl⟩ : ∃ less, fuel = less + 1 := ⟨fuel - 1, by
        rw [List.length_singleton] at some
        omega⟩
      refine ⟨item, next, live'', owned, ?_, found.grown, found.made⟩
      rw [run, fat16GetDirectoryEntryLoop, if_pos cons.left.parts.1, Exec.run_pure]
  | @down entries below name names trail entry target named into rest ih =>
      intro live' kernel current part lower directory contents ptrs all mine program holding same fits
        pathLive looksUp size room enough
      rw [List.map_cons, List.sum_cons] at enough
      have onDisk : NodeOn volume start.drive entry (some below) := into
      obtain ⟨item, next, live'', owned, found, room'⟩ :=
        holding.finds held bounded fits (same ▸ named) onDisk size room (by omega)
      obtain ⟨middle, search, freed⟩ := found.search
      obtain ⟨_, _, buffer, after, _, cons⟩ := pathLive.uncons pathLive.parts.1
      cases cons.names
      obtain ⟨fuel, enough', run⟩ := looksUp
        ((holding.grown.keeps cons.partHeld).obj cons.part rfl)
        ((holding.grown.keeps cons.nameHeld).obj cons.name rfl) search freed
        (found.made.notNull found.grown.invariant.null)
      rw [List.length_cons] at enough'
      obtain ⟨less, rfl⟩ : ∃ less, fuel = less + 1 := ⟨fuel - 1, by omega⟩
      obtain ⟨inside, reached, counted, holding'⟩ := found.made.holding found.grown
      have more : after ≠ 0 := by
        cases names with
        | nil => exact absurd rfl rest.notEmpty
        | cons _ _ => exact cons.left.parts.1
      have notNull := reached.notNull found.grown.invariant.null
      have total' := (holding.grown.invariant.heap.sameTotal found.grown.invariant.heap).trans size
      have looksUp' : LooksUp (walkRest diskstreamerRead less item inside after) next item inside
          after names.length := fun here named search freed _ =>
        ⟨less, by omega, walkRest_searched here named search notNull freed less⟩
      obtain ⟨result, last, live₂, owned', done, grown, made⟩ := ih on holding'
        (FatDirectory.entries_flatten into.chain.stored.whole counted) (holding'.fits notNull)
        cons.left looksUp' total' room' (by omega)
      refine ⟨result, last, live₂, owned', ?_, grown.congr fun ptr => ?_, made⟩
      · rw [run, fat16GetDirectoryEntryLoop_down reached more, done]
      · constructor
        · rintro (⟨old | own, other⟩ | new)
          · exact .inl old
          · exact absurd own other
          · exact .inr new
        · rintro (⟨old, other⟩ | new)
          · exact .inl ⟨.inl ⟨old, other⟩, found.fresh ptr old⟩
          · exact .inr new

/-- A path of the root directory is found by the walk. -/
theorem fat16GetDirectoryEntry_finds (inv : KernelInvariant region live start)
    (root : RootLive live volume start) (bounded : VolumeBounded volume start)
    (buffer : start.objs volume.rootDirectory.item = some (.bytes contents))
    (fits : sizeofFatDirectoryItem * volume.rootDirectory.total.toNat ≤ contents.length)
    (pathLive : PathLive live start path names ptrs) {trail : List (List (List UInt8))}
    (resolves : ResolvesBy (OnlyNamed NamedAs) (WholeDirectory volume start.drive)
      (volume.rootDirectory.entries contents) names trail raw)
    (on : NodeOn volume start.drive raw node)
    (room : start.heap.Room lower start.heap.table.total)
    (enough : lower + (trail.map fun below => nodeBlocks (some below)).sum + nodeBlocks node <
      start.heap.table.total) :
    ∃ item last live' owned, (fat16GetDirectoryEntry diskstreamerRead path).run start =
        .ok (item, last) ∧ Grown region live live' start last owned ∧
      NodeMade live' last raw item node owned := by
  have holding : Holding region live live start start (fun _ => False) (fun _ => False) 0
      volume.rootDirectory contents :=
    ⟨.refl inv, ⟨buffer, .inr root.held⟩, .inl ⟨rfl, fun _ => id⟩, fun _ => False.elim⟩
  have looksUp : LooksUp (fat16GetDirectoryEntry diskstreamerRead path) start 0
      volume.rootDirectory path names.length := by
    intro value name item found next here named search freed notNull
    obtain ⟨_, rfl⟩ := freed.resolve_right fun below => below.1 rfl
    obtain ⟨_, _, _, _, grown, _⟩ := (fat16FindItemInDirectory_searched
      diskstreamerRead_readsStreams inv root.volumeLive holding.target search).outcome inv
    have short := pathLive.length_le inv
    rw [← inv.heap.sameTotal grown.invariant.heap] at short
    refine ⟨next.heap.table.total + 1, by omega, ?_⟩
    rw [fat16GetDirectoryEntry_searched root.volumeLive.fsPrivate here named search, if_neg notNull]
  obtain ⟨item, last, live', owned, run, grown, made⟩ := holding.finds_path root.volumeLive bounded
    on resolves rfl fits pathLive looksUp rfl room enough
  exact ⟨item, last, live', owned, run, grown.congr fun ptr =>
    ⟨fun both => both.resolve_left fun none => none.1, .inr⟩, made⟩

/-- An open whose walk has found an item returns its descriptor. -/
theorem fat16Open_found (inv : KernelInvariant region live kernel) {descriptor : Nat} {last : Kernel}
    (starts : OpenStarts region live kernel descriptor start)
    (entry : (fat16GetDirectoryEntry diskstreamerRead path).run start = .ok (item, last))
    (grown : Grown region (⟨descriptor, sizeofFatItem⟩ :: live) live' start last owned)
    (made : NodeMade live' last raw item node owned) :
    ∃ next, (fat16Open diskstreamerRead path fileModeRead).run kernel = .ok (descriptor, next) ∧
      isErr descriptor = false ∧
      Grown region live live' kernel next (fun ptr => ptr = descriptor ∨ owned ptr) ∧
      next.objs descriptor = some (.fatFileDescriptor { item := item, pos := 0 }) ∧
      NodeMade live' next raw item node owned := by
  have held : ∃ allocation ∈ (⟨descriptor, sizeofFatItem⟩ :: live : List Allocation),
      allocation.ptr = descriptor := ⟨_, List.mem_cons_self, rfl⟩
  have present := (grown.keeps held).obj starts.placed.present rfl
  have notNull := made.notNull grown.invariant.null
  have loaded : (load Obj.fatFileDescriptor? descriptor).run last = .ok (_, last) :=
    load_of_obj present rfl
  have there : (last.objs descriptor).isSome := by
    rw [present]
    rfl
  have opened : ((last.setObj descriptor (some (.fatFileDescriptor { item := item }))).objs
      descriptor) = some (.fatFileDescriptor { item := item }) := Kernel.setObj_objs_self ..
  have loaded' : (load Obj.fatFileDescriptor? descriptor).run (last.setObj descriptor
      (some (.fatFileDescriptor { item := item }))) = .ok (_, _) := load_of_obj opened rfl
  have fresh : ¬ owned descriptor := grown.fresh ⟨descriptor, sizeofFatItem⟩ List.mem_cons_self
  refine ⟨last.setObj descriptor (some (.fatFileDescriptor { item := item, pos := 0 })), ?_, ?_,
    ((starts.grown inv).trans grown).setObj starts.placed.fresh there _,
    Kernel.setObj_objs_self .., made.of_kept (fun ptr other => Kernel.setObj_objs_of_ne _ _ other) ?_
      fun allocation member => ⟨allocation, member, rfl⟩⟩
  · rw [fat16Open, if_neg (not_not.mpr rfl), kzalloc, Exec.bind_of_ok starts.requested,
      if_neg starts.placed.notNull, Exec.bind_of_ok entry, Exec.bind_of_ok loaded,
      Exec.bind_of_ok (store_of_live there), if_neg notNull, Exec.bind_of_ok loaded',
      Exec.bind_of_ok (store_of_live (by rw [opened]; rfl)), Exec.run_pure, Kernel.setObj_setObj]
  · -- the descriptor lies below 2 GiB, so it is no error
    have below : descriptor + _ ≤ 2147483648 := starts.placed.invariant.below List.mem_cons_self
    have oneBlock : blocksFor sizeofFatItem = 1 := by decide
    rw [oneBlock] at below
    unfold peachosHeapBlockSize at below
    unfold isErr i32
    exact decide_eq_false (by omega)
  · rintro ptr rfl
    exact ⟨fresh, grown.heldStill held⟩

/-- The walk of an open finds the path where the end of the heap is free. -/
theorem fat16Open_walks (inv : KernelInvariant region live kernel)
    (root : RootLive live volume kernel) (bounded : VolumeBounded volume kernel)
    (buffer : kernel.objs volume.rootDirectory.item = some (.bytes contents))
    (fits : sizeofFatDirectoryItem * volume.rootDirectory.total.toNat ≤ contents.length)
    (pathLive : PathLive live kernel path names ptrs) {trail : List (List (List UInt8))}
    (resolves : ResolvesBy (OnlyNamed NamedAs) (WholeDirectory volume kernel.drive)
      (volume.rootDirectory.entries contents) names trail raw)
    (on : NodeOn volume kernel.drive raw node)
    (room : kernel.heap.Room lower kernel.heap.table.total)
    (enough : lower + 1 + (trail.map fun below => nodeBlocks (some below)).sum + nodeBlocks node <
      kernel.heap.table.total) :
    ∃ descriptor start item last live' owned, OpenStarts region live kernel descriptor start ∧
      (fat16GetDirectoryEntry diskstreamerRead path).run start = .ok (item, last) ∧
      Grown region (⟨descriptor, sizeofFatItem⟩ :: live) live' start last owned ∧
      NodeMade live' last raw item node owned := by
  have oneBlock : blocksFor sizeofFatItem = 1 := by decide
  obtain ⟨descriptor, start, requested, placed, room'⟩ := kmalloc_room inv room
    (show 1 ≤ sizeofFatItem by decide) (by decide) (by rw [oneBlock]; omega) (.fatFileDescriptor {})
  have starts : OpenStarts region live kernel descriptor start := ⟨requested, placed⟩
  have grown := starts.grown inv
  rw [oneBlock, ← inv.heap.sameTotal placed.invariant.heap] at room'
  rw [← inv.heap.sameTotal placed.invariant.heap] at enough
  rw [← grown.drive] at resolves on
  obtain ⟨item, last, live', owned, entry, grown', made⟩ := fat16GetDirectoryEntry_finds
    placed.invariant (root.grown grown) (bounded.grown grown)
    ((grown.keeps root.held).obj buffer rfl) fits (pathLive.grown grown) resolves on room' enough
  exact ⟨descriptor, start, item, last, live', owned, starts, entry, grown', made⟩

/-- **A path that is found.** Where each name of the path is the one of a single entry of its
directory, the directories on the way are whole, and the end of the heap is free for what the walk
loads, `fat16_open` returns a descriptor of the item of the entry, with a copy of the entry of a file
or the entries of a directory; the blocks of the two are the only ones that stay allocated. -/
theorem fat16Open_finds (inv : KernelInvariant region live kernel)
    (root : RootLive live volume kernel) (bounded : VolumeBounded volume kernel)
    (buffer : kernel.objs volume.rootDirectory.item = some (.bytes contents))
    (fits : sizeofFatDirectoryItem * volume.rootDirectory.total.toNat ≤ contents.length)
    (pathLive : PathLive live kernel path names ptrs) {trail : List (List (List UInt8))}
    (resolves : ResolvesBy (OnlyNamed NamedAs) (WholeDirectory volume kernel.drive)
      (volume.rootDirectory.entries contents) names trail raw)
    (on : NodeOn volume kernel.drive raw node)
    (room : kernel.heap.Room lower kernel.heap.table.total)
    (enough : lower + 1 + (trail.map fun below => nodeBlocks (some below)).sum + nodeBlocks node <
      kernel.heap.table.total) :
    ∃ descriptor item next live' owned,
      (fat16Open diskstreamerRead path fileModeRead).run kernel = .ok (descriptor, next) ∧
      isErr descriptor = false ∧
      Grown region live live' kernel next (fun ptr => ptr = descriptor ∨ owned ptr) ∧
      next.objs descriptor = some (.fatFileDescriptor { item := item, pos := 0 }) ∧
      NodeMade live' next raw item node owned := by
  obtain ⟨descriptor, start, item, last, live', owned, starts, entry, grown, made⟩ :=
    fat16Open_walks inv root bounded buffer fits pathLive resolves on room enough
  obtain ⟨next, opened⟩ := fat16Open_found inv starts entry grown made
  exact ⟨descriptor, item, next, live', owned, opened⟩

end Walk

/-- A path to a file in a subdirectory of a small volume. -/
structure FileBelow (live : List Allocation) (kernel : Kernel) (volume : FatPrivate) (path : Nat)
    (names : List (List UInt8)) (ptrs : List Nat) (contents raw : List UInt8)
    (trail : List (List (List UInt8))) : Prop where
  invariant : KernelInvariant kernelHeapRegion live kernel
  root : RootLive live volume kernel
  bounded : VolumeBounded volume kernel
  buffer : kernel.objs volume.rootDirectory.item = some (.bytes contents)
  fits : sizeofFatDirectoryItem * volume.rootDirectory.total.toNat ≤ contents.length
  pathLive : PathLive live kernel path names ptrs
  resolves : ResolvesBy (OnlyNamed NamedAs) (WholeDirectory volume kernel.drive)
    (volume.rootDirectory.entries contents) names trail raw
  on : NodeOn volume kernel.drive raw none
  room : kernel.heap.Room 10 kernel.heap.table.total
  enough : 10 + 1 + (trail.map fun below => nodeBlocks (some below)).sum + nodeBlocks none <
    kernel.heap.table.total

theorem fileBelow_boot : ∃ live kernel volume path names ptrs contents raw trail,
    FileBelow live kernel volume path names ptrs contents raw trail := by
  obtain ⟨live, kernel, volume, small⟩ := @smallVolume_boot subdirectoryImage [subdirectoryEntry]
    (by decide +kernel) (by decide +kernel) (by decide)
  have short : ∀ name ∈ [itemName subdirectoryEntry, [65]], name.length < peachosMaxPath := by
    decide +kernel
  obtain ⟨live', ready, all, path, ptrs, grown, pathLive, room⟩ :=
    exists_pathLive small.invariant small.room short (by decide)
  have one : volume.rootDirectory.total.toNat = 1 := by
    rw [small.total]
    decide
  have entry : itemBytes (window (imageOf (smallHeader ++ subdirectoryImage)) 1024 512) 0 =
      subdirectoryEntry := by decide +kernel
  have only : ∀ {directory : FatDirectory} {contents name raw : List UInt8},
      directory.total.toNat = 1 → itemBytes contents 0 = raw → NamedAs raw name →
        OnlyNamed NamedAs (directory.entries contents) name raw := by
    rintro directory contents name raw one rfl named
    refine ⟨0, FatDirectory.entries_getElem?.mpr ⟨by omega, rfl⟩, named, fun j other there _ => ?_⟩
    have inside := (FatDirectory.entries_getElem?.mp there).1
    omega
  have stored : DirectoryAt (imageOf (smallHeader ++ subdirectoryImage)) 1536
      [65 :: List.replicate 31 0] := by decide +kernel
  obtain ⟨chain, counted⟩ := smallVolume_oneEntry small stored (by decide)
  rw [← grown.drive] at chain counted
  have total : ready.heap.table.total = 25600 := by
    have bytes : _ * 4096 = 104857600 := grown.invariant.heap.total
    omega
  have named : NamedAs subdirectoryEntry (itemName subdirectoryEntry) ∧
      NamedAs (65 :: List.replicate 31 0) [65] := by decide +kernel
  have whole : WholeDirectory volume ready.drive subdirectoryEntry [65 :: List.replicate 31 0] :=
    ⟨by decide, chain, counted⟩
  refine ⟨live', ready, volume, path, _, ptrs, _, 65 :: List.replicate 31 0,
    [[65 :: List.replicate 31 0]], grown.invariant, small.root.grown grown,
    small.bounded.grown grown, (grown.keeps small.root.held).obj small.buffer rfl, ?_, pathLive,
    .down (only one entry named.1) whole (.last ⟨0, rfl, named.2, fun j other there _ => ?_⟩),
    show (FatDirectoryItem.decode (65 :: List.replicate 31 0)).attributes &&& _ = 0 by decide,
    by rw [total]; exact room, ?_⟩
  · rw [one, length_window]
    decide
  · have inside := (List.getElem?_eq_some_iff.mp there).1
    rw [List.length_singleton] at inside
    omega
  · rw [total]
    decide

/-- A file in a subdirectory is found. -/
theorem fat16Open_finds_boot : ∃ live kernel path descriptor item next live' owned raw,
    KernelInvariant kernelHeapRegion live kernel ∧
      (fat16Open diskstreamerRead path fileModeRead).run kernel = .ok (descriptor, next) ∧
      isErr descriptor = false ∧
      Grown kernelHeapRegion live live' kernel next (fun ptr => ptr = descriptor ∨ owned ptr) ∧
      next.objs descriptor = some (.fatFileDescriptor { item := item, pos := 0 }) ∧
      NodeMade live' next raw item none owned := by
  obtain ⟨live, kernel, volume, path, names, ptrs, contents, raw, trail, below⟩ := fileBelow_boot
  obtain ⟨descriptor, item, next, live', owned, opened⟩ := fat16Open_finds below.invariant below.root
    below.bounded below.buffer below.fits below.pathLive below.resolves below.on below.room
    below.enough
  exact ⟨live, kernel, path, descriptor, item, next, live', owned, raw, below.invariant, opened⟩

end Peachos
