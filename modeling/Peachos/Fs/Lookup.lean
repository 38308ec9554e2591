import Peachos.Fs.DirectorySearch
import Peachos.Kernel.Room

/-! # What a lookup allocates

`fat16_find_item_in_directory` makes an item for each entry whose name matches and returns the last
one, so the items of the others are lost. `Searched` says what a completed lookup has done: the
items are made as long as a block is free.
-/

namespace Peachos

open CInt

/-- The lookup compares entry `k` as equal. -/
def Matches (directory : FatDirectory) (contents name : List UInt8) (k : Nat) : Prop :=
  k < directory.total.toNat ∧ Named (itemBytes contents k) name

instance (directory : FatDirectory) (contents name : List UInt8) :
    DecidablePred (Matches directory contents name) :=
  fun _ => inferInstanceAs (Decidable (_ ∧ _))

/-- The last of the entries that match. -/
def LastMatch (directory : FatDirectory) (contents name : List UInt8) (k : Nat) : Prop :=
  Matches directory contents name k ∧ ∀ j, Matches directory contents name j → j ≤ k

/-- The buffer of the directory has the contents, and is live if there is an entry in it. -/
structure SearchTarget (live : List Allocation) (kernel : Kernel) (directory : FatDirectory)
    (contents : List UInt8) : Prop where
  buffer : kernel.objs directory.item = some (.bytes contents)
  held : directory.total.toNat = 0 ∨ ∃ allocation ∈ live, allocation.ptr = directory.item

/-- What a completed lookup did: nothing, or it made one item, or it made several and returned the
last one; then something stays allocated that does not belong to the item it returned. -/
inductive Searched (region : KernelRegion) (live : List Allocation) (kernel : Kernel)
    (directory : FatDirectory) (contents name : List UInt8) (item : Nat) (next : Kernel) : Prop
  | unnamed (none : ∀ k, ¬ Matches directory contents name k) (null : item = 0)
      (same : next = kernel)
  | full (full : kernel.heap.freeBlocks = 0) (null : item = 0) (same : next = kernel)
  | one (k : Nat) (named : Matches directory contents name k)
      (only : ∀ j, Matches directory contents name j → j = k)
      (free : 1 ≤ kernel.heap.freeBlocks) (notNull : item ≠ 0)
      (live' : List Allocation) (owned : Nat → Prop)
      (grown : Grown region live live' kernel next owned)
      (made : ItemMade live' next (itemBytes contents k) item owned)
  | several (j k : Nat) (before : j < k) (first : Matches directory contents name j)
      (last : Matches directory contents name k) (free : 1 ≤ kernel.heap.freeBlocks)
      (live' : List Allocation) (all owned : Nat → Prop)
      (grown : Grown region live live' kernel next all)
      (made : ItemMade live' next (itemBytes contents k) item owned)
      (within : ∀ ptr, owned ptr → all ptr) (left : ∃ ptr, all ptr ∧ ¬ owned ptr)

/-- The lookup from `kernel` has come to its last match in `reached`, and makes the item of it. -/
structure LastMade (read : StreamRead) (region : KernelRegion) (live live' : List Allocation)
    (kernel reached : Kernel) (directory : FatDirectory) (contents name : List UInt8) (k : Nat)
    (all : Nat → Prop) (item : Nat) (next : Kernel) : Prop where
  last : LastMatch directory contents name k
  inside : sizeofFatDirectoryItem * (k + 1) ≤ contents.length
  held : ∃ allocation ∈ live, allocation.ptr = directory.item
  before : ∃ earlier, (fat16FindItemLoop read directory name k 0 0).run kernel =
    .ok (earlier, reached)
  grown : Grown region live live' kernel reached all
  making : (fat16NewFatItemForDirectoryItem read (itemBytes contents k)).run reached =
    .ok (item, next)

section Lookup

variable {region : KernelRegion} {live : List Allocation} {kernel next : Kernel}
  {volume : FatPrivate} {read : StreamRead} {directory : FatDirectory}
  {contents name : List UInt8} {item : Nat}

/-- The item is what the first request returned. -/
theorem fat16NewFatItemForDirectoryItem_requested {raw : List UInt8}
    (run : (fat16NewFatItemForDirectoryItem read raw).run kernel = .ok (item, next)) :
    ∃ allocated, (kmalloc sizeofFatItem (.fatItem {})).run kernel = .ok (item, allocated) := by
  obtain ⟨found, allocated, requested, rest⟩ := Exec.bind_eq_ok.mp run
  refine ⟨allocated, ?_⟩
  suffices same : item = found by rw [same]; exact requested
  by_cases null : found = 0
  · rw [if_pos null] at rest
    cases rest
    exact null.symm
  rw [if_neg null] at rest
  split at rest
  · obtain ⟨_, _, _, rest⟩ := Exec.bind_eq_ok.mp rest
    obtain ⟨_, _, _, rest⟩ := Exec.bind_eq_ok.mp rest
    obtain ⟨_, _, _, rest⟩ := Exec.bind_eq_ok.mp rest
    cases rest
    rfl
  · obtain ⟨_, _, _, rest⟩ := Exec.bind_eq_ok.mp rest
    obtain ⟨_, _, _, rest⟩ := Exec.bind_eq_ok.mp rest
    obtain ⟨_, _, _, rest⟩ := Exec.bind_eq_ok.mp rest
    obtain ⟨_, _, _, rest⟩ := Exec.bind_eq_ok.mp rest
    obtain ⟨_, _, _, rest⟩ := Exec.bind_eq_ok.mp rest
    cases rest
    rfl

/-- With a free block the item is made. -/
theorem fat16NewFatItemForDirectoryItem_notNull (inv : KernelInvariant region live kernel)
    (free : 1 ≤ kernel.heap.freeBlocks) {raw : List UInt8}
    (run : (fat16NewFatItemForDirectoryItem read raw).run kernel = .ok (item, next)) :
    item ≠ 0 := by
  obtain ⟨_, requested⟩ := fat16NewFatItemForDirectoryItem_requested run
  obtain ⟨_, _, requested', placed, _⟩ :=
    kmalloc_lowest inv (show blocksFor sizeofFatItem = 1 by decide) free (.fatItem {})
  rw [requested] at requested'
  cases requested'
  exact placed.notNull

/-- Without one it is refused. -/
theorem fat16NewFatItemForDirectoryItem_full (inv : KernelInvariant region live kernel)
    (full : kernel.heap.freeBlocks = 0) (raw : List UInt8) :
    (fat16NewFatItemForDirectoryItem read raw).run kernel = .ok (0, kernel) := by
  have refused := kmalloc_refused inv (show 1 ≤ sizeofFatItem by decide) (by decide)
    (Heap.refuses_of_full full (by decide)) (.fatItem {})
  rw [fat16NewFatItemForDirectoryItem, kzalloc, Exec.bind_of_ok refused, if_pos rfl, Exec.run_pure]

/-- The item of a file is made where there are two free blocks. -/
theorem fat16NewFatItemForDirectoryItem_file (inv : KernelInvariant region live kernel)
    (room : kernel.heap.RoomAfter 1 1) {raw : List UInt8}
    (length : raw.length = sizeofFatDirectoryItem)
    (regular : (FatDirectoryItem.decode raw).attributes &&& fatFileSubdirectory = 0) :
    ∃ found pointer last, (fat16NewFatItemForDirectoryItem read raw).run kernel =
        .ok (found, last) ∧
      last.objs found = some (.fatItem { pointer := pointer, type := fatItemTypeFile }) ∧
        last.objs pointer = some (.bytes raw) := by
  have oneBlock : blocksFor sizeofFatItem = 1 ∧ blocksFor sizeofFatDirectoryItem = 1 := by decide
  obtain ⟨found, allocated, requested, placed, lowest⟩ :=
    kmalloc_lowest inv oneBlock.1 (room.positive le_rfl) (.fatItem {})
  have opened : (load Obj.fatItem? found).run allocated = .ok (_, allocated) :=
    load_of_obj placed.present rfl
  have there : (allocated.objs found).isSome := by
    rw [placed.present]
    rfl
  obtain ⟨pointer, copied, requested', placed', _⟩ := kmalloc_lowest
    (placed.invariant.setObj there (.fatItem { type := fatItemTypeFile })) oneBlock.2
    (((lowest.roomAfter 0 1).mpr room).positive le_rfl)
    (.bytes (List.replicate sizeofFatDirectoryItem 0))
  have different : found ≠ pointer := placed'.fresh _ List.mem_cons_self
  have wrote := @writeBytes_run copied pointer 0 _ raw placed'.present
    (by rw [Nat.zero_add, length, List.length_replicate])
  have cloned : (fat16CloneDirectoryItem raw sizeofFatDirectoryItem).run
      (allocated.setObj found (some (.fatItem { type := fatItemTypeFile }))) =
        .ok (pointer, copied.setObj pointer (some (.bytes raw))) := by
    rw [fat16CloneDirectoryItem, if_neg (lt_irrefl _), kzalloc, Exec.bind_of_ok requested',
      if_neg placed'.notNull, List.take_of_length_le length.le, Exec.bind_of_ok wrote,
      Exec.run_pure, List.take_zero, List.nil_append, Nat.zero_add, length,
      List.drop_eq_nil_of_le (by rw [List.length_replicate]), List.append_nil]
  have present : (copied.setObj pointer (some (.bytes raw))).objs found =
      some (.fatItem { type := fatItemTypeFile }) := by
    rw [Kernel.setObj_objs_of_ne _ _ different]
    exact (placed'.kept _ List.mem_cons_self).trans (Kernel.setObj_objs_self ..)
  have opened' : (load Obj.fatItem? found).run (copied.setObj pointer (some (.bytes raw))) =
      .ok (_, _) := load_of_obj present rfl
  refine ⟨found, pointer, (copied.setObj pointer (some (.bytes raw))).setObj found
    (some (.fatItem { pointer := pointer, type := fatItemTypeFile })), ?_,
    Kernel.setObj_objs_self .., ?_⟩
  · rw [fat16NewFatItemForDirectoryItem, kzalloc, Exec.bind_of_ok requested,
      if_neg placed.notNull, if_neg (not_not.mpr regular), Exec.bind_of_ok opened,
      Exec.bind_of_ok (store_of_live there), Exec.bind_of_ok cloned, Exec.bind_of_ok opened',
      Exec.bind_of_ok (store_of_live (by rw [present]; rfl)), Exec.run_pure]
  · rw [Kernel.setObj_objs_of_ne _ _ different.symm, Kernel.setObj_objs_self]

/-- A lookup on a full heap finds nothing. -/
theorem fat16FindItemLoop_full (inv : KernelInvariant region live kernel)
    (full : kernel.heap.freeBlocks = 0)
    (buffer : kernel.objs directory.item = some (.bytes contents)) : ∀ count i,
    sizeofFatDirectoryItem * (i + count) ≤ contents.length →
      (fat16FindItemLoop read directory name count i 0).run kernel = .ok (0, kernel) := by
  intro count
  induction count with
  | zero => exact fun _ _ => rfl
  | succ count ih =>
      intro i inside
      have here : sizeofFatDirectoryItem * (i + 1) ≤ contents.length :=
        (Nat.mul_le_mul_left _ (by omega)).trans inside
      have rest := ih (i + 1) (by rw [Nat.add_right_comm]; exact inside)
      rw [fat16FindItemLoop_step buffer here]
      by_cases named : Named (itemBytes contents i) name
      · rw [if_pos named,
          Exec.bind_of_ok (fat16NewFatItemForDirectoryItem_full inv full _), rest]
      · rw [if_neg named, rest]

/-- The state in which a search goes on after some entries. -/
theorem fat16FindItemLoop_keeps (reads : ReadsStreams read)
    (inv : KernelInvariant region live kernel) (mounted : VolumeLive live volume kernel)
    (buffer : kernel.objs directory.item = some (.bytes contents))
    (held : ∃ allocation ∈ live, allocation.ptr = directory.item) {count i fItem : Nat}
    (run : (fat16FindItemLoop read directory name count i fItem).run kernel = .ok (item, next)) :
    ∃ live' all, Grown region live live' kernel next all := by
  rcases fat16FindItemLoop_completed reads count i fItem live kernel inv mounted buffer held run with
    ⟨_, rfl⟩ | ⟨_, live', all, _, _, _, _, grown, _, _⟩
  · exact ⟨live, _, .refl inv⟩
  · exact ⟨live', all, grown⟩

/-- A completed search stayed in the buffer. -/
theorem fat16FindItemLoop_inside (reads : ReadsStreams read) : ∀ (count i fItem : Nat)
    (live : List Allocation) (kernel : Kernel), KernelInvariant region live kernel →
    VolumeLive live volume kernel → kernel.objs directory.item = some (.bytes contents) →
    (∃ allocation ∈ live, allocation.ptr = directory.item) → ∀ {item : Nat},
    (fat16FindItemLoop read directory name count i fItem).run kernel = .ok (item, next) →
    count = 0 ∨ sizeofFatDirectoryItem * (i + count) ≤ contents.length := by
  intro count
  induction count with
  | zero => exact fun _ _ _ _ _ _ _ _ _ _ => .inl rfl
  | succ count ih =>
      intro i fItem live kernel inv mounted buffer held item run
      have whole := run
      obtain ⟨raw, middle, loaded, rest⟩ := Exec.bind_eq_ok.mp run
      obtain ⟨found, bytes, present, typed, checked⟩ := load_bind_eq_ok.mp loaded
      rw [buffer] at present
      cases present
      cases typed
      by_cases inside : sizeofFatDirectoryItem * (i + 1) ≤ contents.length
      · right
        rw [fat16FindItemLoop_step buffer inside] at whole
        have tail : count = 0 ∨ sizeofFatDirectoryItem * (i + 1 + count) ≤ contents.length := by
          by_cases named : Named (itemBytes contents i) name
          · rw [if_pos named] at whole
            obtain ⟨made, after, making, rest⟩ := Exec.bind_eq_ok.mp whole
            obtain ⟨live', owned, grown, _⟩ := fat16NewFatItemForDirectoryItem_completed reads inv
              mounted (length_itemBytes inside) making
            exact ih (i + 1) made live' after grown.invariant (mounted.grown grown)
              ((grown.keeps held).obj buffer rfl) (grown.heldStill held) rest
          · rw [if_neg named] at whole
            exact ih (i + 1) fItem live kernel inv mounted buffer held whole
        rcases tail with rfl | tail
        · exact inside
        · rwa [Nat.add_right_comm] at tail
      · rw [if_neg inside, Exec.run_fault] at checked
        cases checked

/-- An item that was made takes a block. -/
theorem ItemMade.owns_item {raw : List UInt8} {owned : Nat → Prop}
    (made : ItemMade live kernel raw item owned) (notNull : item ≠ 0) : owned item := by
  cases made with
  | refused null _ => exact absurd null notNull
  | uncopied _ _ owns => exact (owns item).mpr rfl
  | file _ _ _ _ owns => exact (owns item).mpr (.inl rfl)
  | dangling _ _ _ _ owns => exact (owns item).mpr rfl
  | directory _ _ _ _ _ _ _ owns => exact (owns item).mpr (.inl rfl)

/-- The null item owns nothing. -/
theorem ItemMade.unowned {raw : List UInt8} {owned : Nat → Prop}
    (made : ItemMade live kernel raw 0 owned) (null : kernel.objs 0 = none) (ptr : Nat) :
    ¬ owned ptr := by
  cases made with
  | refused _ none => exact none ptr
  | uncopied _ present =>
      rw [null] at present
      cases present
  | file _ _ present =>
      rw [null] at present
      cases present
  | dangling _ _ present =>
      rw [null] at present
      cases present
  | directory _ _ _ _ _ present =>
      rw [null] at present
      cases present

/-- The item of a regular file is one of a file. -/
theorem ItemMade.isFile {raw : List UInt8} {owned : Nat → Prop}
    (made : ItemMade live kernel raw item owned) {value : FatItem}
    (present : kernel.objs item = some (.fatItem value)) (null : kernel.objs 0 = none) :
    value.type ≠ fatItemTypeDirectory ↔
      (FatDirectoryItem.decode raw).attributes &&& fatFileSubdirectory = 0 := by
  cases made with
  | refused isNull _ =>
      rw [isNull, null] at present
      cases present
  | uncopied regular present' _ =>
      rw [present'] at present
      cases present
      exact iff_of_true (by decide) regular
  | file _ regular present' _ _ =>
      rw [present'] at present
      cases present
      exact iff_of_true (show fatItemTypeFile ≠ fatItemTypeDirectory by decide) regular
  | dangling _ subdirectory present' _ _ =>
      rw [present'] at present
      cases present
      exact iff_of_false (not_not.mpr rfl) subdirectory
  | directory _ _ _ _ subdirectory present' _ _ =>
      rw [present'] at present
      cases present
      exact iff_of_false (not_not.mpr rfl) subdirectory

/-- The first match takes a block, which stays taken. -/
theorem fat16FindItemLoop_allocates (reads : ReadsStreams read)
    (inv : KernelInvariant region live kernel) (mounted : VolumeLive live volume kernel)
    (buffer : kernel.objs directory.item = some (.bytes contents))
    (held : ∃ allocation ∈ live, allocation.ptr = directory.item)
    (free : 1 ≤ kernel.heap.freeBlocks) {j rest : Nat}
    (inside : sizeofFatDirectoryItem * (j + (rest + 1)) ≤ contents.length)
    (named : Named (itemBytes contents j) name)
    (first : ∀ other < j, ¬ Named (itemBytes contents other) name)
    (run : (fat16FindItemLoop read directory name (j + (rest + 1)) 0 0).run kernel =
      .ok (item, next)) :
    ∃ live' all, Grown region live live' kernel next all ∧ ∃ ptr, all ptr := by
  have here : sizeofFatDirectoryItem * (j + 1) ≤ contents.length :=
    (Nat.mul_le_mul_left _ (by omega)).trans inside
  have skipped := @fat16FindItemLoop_none kernel read directory contents name buffer 0 j 0
    ((Nat.mul_le_mul_left _ (by omega)).trans inside) fun other _ before => first other (by omega)
  rw [fat16FindItemLoop_append, Nat.zero_add, Exec.bind_of_ok skipped,
    fat16FindItemLoop_step buffer here, if_pos named] at run
  obtain ⟨made, after, making, run⟩ := Exec.bind_eq_ok.mp run
  obtain ⟨live', owned, grown, item'⟩ := fat16NewFatItemForDirectoryItem_completed reads inv
    mounted (length_itemBytes here) making
  have notNull := fat16NewFatItemForDirectoryItem_notNull inv free making
  obtain ⟨live'', all, grown'⟩ := fat16FindItemLoop_keeps reads grown.invariant
    (mounted.grown grown) ((grown.keeps held).obj buffer rfl) (grown.heldStill held) run
  exact ⟨live'', _, grown.trans grown', made, .inl (item'.owns_item notNull)⟩

/-- Among the matches there is a last one. -/
theorem exists_lastMatch (some : ∃ k, Matches directory contents name k) :
    ∃ k, LastMatch directory contents name k := by
  obtain ⟨k, named⟩ := some
  exact ⟨Nat.findGreatest (Matches directory contents name) directory.total.toNat,
    Nat.findGreatest_spec named.1.le named, fun j named' => Nat.le_findGreatest named'.1.le named'⟩

/-- A completed lookup stayed in the buffer, if there was an entry to look at. -/
theorem SearchTarget.fits (target : SearchTarget live kernel directory contents)
    (reads : ReadsStreams read) (inv : KernelInvariant region live kernel)
    (mounted : VolumeLive live volume kernel)
    (run : (fat16FindItemInDirectory read directory name).run kernel = .ok (item, next)) :
    sizeofFatDirectoryItem * directory.total.toNat ≤ contents.length := by
  by_cases empty : directory.total.toNat = 0
  · rw [empty]
    exact Nat.zero_le _
  · have inside := (fat16FindItemLoop_inside reads _ 0 0 live kernel inv mounted target.buffer
      (target.held.resolve_left empty) run).resolve_left empty
    rwa [Nat.zero_add] at inside

/-- **A completed lookup** finds nothing, or it ends with the item of its last match. -/
theorem fat16FindItemInDirectory_last (reads : ReadsStreams read)
    (inv : KernelInvariant region live kernel) (mounted : VolumeLive live volume kernel)
    (target : SearchTarget live kernel directory contents)
    (run : (fat16FindItemInDirectory read directory name).run kernel = .ok (item, next)) :
    (∀ k, ¬ Matches directory contents name k) ∧ item = 0 ∧ next = kernel ∨
      ∃ k reached live' all, LastMade read region live live' kernel reached directory contents name k
        all item next := by
  have buffer := target.buffer
  have inside := target.fits reads inv mounted run
  rw [fat16FindItemInDirectory] at run
  by_cases some : ∃ k, Matches directory contents name k
  swap
  · have none : ∀ k, ¬ Matches directory contents name k := fun k named => some ⟨k, named⟩
    rw [fat16FindItemLoop_none buffer 0 _ 0 (by rwa [Nat.zero_add]) fun j _ before named =>
      none j ⟨by omega, named⟩] at run
    cases run
    exact .inl ⟨none, rfl, rfl⟩
  obtain ⟨k, named, last⟩ := exists_lastMatch some
  have before := named.1
  have held := target.held.resolve_left fun empty => by omega
  obtain ⟨rest, split⟩ : ∃ rest, directory.total.toNat = k + (rest + 1) :=
    ⟨directory.total.toNat - k - 1, by omega⟩
  rw [split] at run inside
  rw [fat16FindItemLoop_last reads inv mounted buffer held inside named.2 fun j after before named' => by
      have least := last j ⟨by omega, named'⟩
      omega] at run
  obtain ⟨earlier, reached, walked, making⟩ := Exec.bind_eq_ok.mp run
  obtain ⟨live', all, grown⟩ := fat16FindItemLoop_keeps reads inv mounted buffer held walked
  exact .inr ⟨k, reached, live', all, ⟨named, last⟩, (Nat.mul_le_mul_left _ (by omega)).trans inside,
    held, ⟨earlier, walked⟩, grown, making⟩

/-- Without an earlier match the item is made in the state that the lookup starts from. -/
theorem LastMade.reached_eq {k : Nat} {reached : Kernel} {live' : List Allocation} {all : Nat → Prop}
    (made : LastMade read region live live' kernel reached directory contents name k all item next)
    (buffer : kernel.objs directory.item = some (.bytes contents))
    (first : ∀ j < k, ¬ Matches directory contents name j) : reached = kernel := by
  obtain ⟨earlier, walked⟩ := made.before
  have before := made.last.1.1
  rw [fat16FindItemLoop_none buffer 0 k 0 (by
      rw [Nat.zero_add]
      exact (Nat.mul_le_mul_left _ (Nat.le_succ k)).trans made.inside) fun j _ less named =>
    first j (by omega) ⟨by omega, named⟩] at walked
  exact (Prod.mk.inj (Except.ok.inj walked)).2.symm

/-- **What a completed lookup did.** -/
theorem fat16FindItemInDirectory_searched (reads : ReadsStreams read)
    (inv : KernelInvariant region live kernel) (mounted : VolumeLive live volume kernel)
    (target : SearchTarget live kernel directory contents)
    (run : (fat16FindItemInDirectory read directory name).run kernel = .ok (item, next)) :
    Searched region live kernel directory contents name item next := by
  have buffer := target.buffer
  have inside := target.fits reads inv mounted run
  rcases fat16FindItemInDirectory_last reads inv mounted target run with
    ⟨none, null, same⟩ | ⟨k, reached, live', all, made⟩
  · exact .unnamed none null same
  have named := made.last.1
  have total := named.1
  rcases Nat.eq_zero_or_pos kernel.heap.freeBlocks with full | free
  · rw [fat16FindItemInDirectory,
      fat16FindItemLoop_full inv full buffer _ 0 (by rwa [Nat.zero_add])] at run
    cases run
    exact .full full rfl rfl
  by_cases more : ∃ j, j < k ∧ Matches directory contents name j
  · -- an earlier match was made, and the item for the last one does not hold it
    have first := Nat.find_spec more
    obtain ⟨rest', split'⟩ : ∃ rest', k = Nat.find more + (rest' + 1) :=
      ⟨k - Nat.find more - 1, by omega⟩
    obtain ⟨earlier, walked⟩ := made.before
    obtain ⟨live₁, all₁, grown, ptr, taken⟩ := fat16FindItemLoop_allocates reads inv mounted buffer
      made.held free (by rw [← split']; exact (Nat.mul_le_mul_left _ (by omega)).trans made.inside)
      first.2.2 (fun other less named' => Nat.find_min more less
        ⟨by omega, by omega, named'⟩) (split' ▸ walked)
    obtain ⟨live'', owned, grown', made'⟩ := fat16NewFatItemForDirectoryItem_completed reads
      grown.invariant (mounted.grown grown) (length_itemBytes made.inside) made.making
    refine .several (Nat.find more) k first.1 first.2 named free live'' _ owned
      (grown.trans grown') made' (fun _ => .inr) ⟨ptr, .inl taken, fun own => ?_⟩
    obtain ⟨allocation, member, same⟩ := grown.held ptr taken
    exact grown'.fresh allocation member (same ▸ own)
  · have only : ∀ j, Matches directory contents name j → j = k := by
      intro j named'
      have least := made.last.2 j named'
      by_contra different
      exact more ⟨j, by omega, named'⟩
    obtain rfl := made.reached_eq buffer fun j less named' => more ⟨j, less, named'⟩
    obtain ⟨live'', owned, grown', made'⟩ := fat16NewFatItemForDirectoryItem_completed reads inv
      mounted (length_itemBytes made.inside) made.making
    exact .one k named only free (fat16NewFatItemForDirectoryItem_notNull inv free made.making) live''
      owned grown' made'

end Lookup

end Peachos
