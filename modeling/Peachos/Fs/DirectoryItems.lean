import Peachos.Fs.Growth

/-! # The items of a directory in the heap

`fat16_new_fat_item_for_directory_item` gives an entry a structure of one block, and a second
block for the copy of a file entry or two more for a loaded directory. `ItemMade` lists what can
be left of these when a request was refused, and which blocks the item holds.

A directory without entries has a buffer of no bytes, which takes no block. A directory that
could not be filled is freed, and the item keeps the pointer to it.
-/

namespace Peachos

open CInt

/-- The directory at the pointer is loaded: it has the entries in `contents`, and takes the
blocks in `owned`. -/
structure DirectoryLoaded (live : List Allocation) (kernel : Kernel) (directory : Nat)
    (value : FatDirectory) (contents : List UInt8) (owned : Nat → Prop) : Prop where
  present : kernel.objs directory = some (.fatDirectory value)
  count : ∃ count : Nat, value.total = count ∧ contents.length = sizeofFatDirectoryItem * count
  buffer : kernel.objs value.item = some (.bytes contents)
  buffered : contents ≠ [] → ∀ ptr, owned ptr ↔ ptr = directory ∨ ptr = value.item
  unbuffered : contents = [] →
    (∀ ptr, owned ptr ↔ ptr = directory) ∧ ∀ allocation ∈ live, allocation.ptr ≠ value.item

namespace DirectoryLoaded

variable {live live' : List Allocation} {kernel next : Kernel} {directory : Nat}
  {value : FatDirectory} {contents : List UInt8} {owned : Nat → Prop}

theorem owns (loaded : DirectoryLoaded live kernel directory value contents owned) :
    owned directory := by
  by_cases empty : contents = []
  · exact ((loaded.unbuffered empty).1 directory).mpr rfl
  · exact (loaded.buffered empty directory).mpr (.inl rfl)

/-- The directory stays loaded while its two objects stay, and no block takes the place of an
empty buffer. -/
theorem congr (loaded : DirectoryLoaded live kernel directory value contents owned)
    (same : next.objs directory = kernel.objs directory)
    (same' : next.objs value.item = kernel.objs value.item)
    (apart : contents = [] → ∀ allocation ∈ live', allocation.ptr ≠ value.item) :
    DirectoryLoaded live' next directory value contents owned where
  present := same.trans loaded.present
  count := loaded.count
  buffer := same'.trans loaded.buffer
  buffered := loaded.buffered
  unbuffered := fun empty => ⟨(loaded.unbuffered empty).1, apart empty⟩

end DirectoryLoaded

/-- What `fat16_new_fat_item_for_directory_item` made of the entry `raw`, and the blocks in
`owned` that it takes. -/
inductive ItemMade (live : List Allocation) (kernel : Kernel) (raw : List UInt8) (item : Nat)
    (owned : Nat → Prop) : Prop
  | refused (null : item = 0) (none : ∀ ptr, ¬ owned ptr)
  | uncopied (regular : (FatDirectoryItem.decode raw).attributes &&& fatFileSubdirectory = 0)
      (present : kernel.objs item = some (.fatItem { pointer := 0, type := fatItemTypeFile }))
      (owns : ∀ ptr, owned ptr ↔ ptr = item)
  | file (pointer : Nat) (regular : (FatDirectoryItem.decode raw).attributes &&& fatFileSubdirectory = 0)
      (present : kernel.objs item = some (.fatItem { pointer := pointer, type := fatItemTypeFile }))
      (copy : kernel.objs pointer = some (.bytes raw))
      (owns : ∀ ptr, owned ptr ↔ ptr = item ∨ ptr = pointer)
  | dangling (pointer : Nat)
      (subdirectory : (FatDirectoryItem.decode raw).attributes &&& fatFileSubdirectory ≠ 0)
      (present : kernel.objs item = some (.fatItem
        { pointer := pointer, type := fatItemTypeDirectory }))
      (freed : kernel.objs pointer = none) (owns : ∀ ptr, owned ptr ↔ ptr = item)
  | directory (pointer : Nat) (value : FatDirectory) (contents : List UInt8) (inner : Nat → Prop)
      (subdirectory : (FatDirectoryItem.decode raw).attributes &&& fatFileSubdirectory ≠ 0)
      (present : kernel.objs item = some (.fatItem
        { pointer := pointer, type := fatItemTypeDirectory }))
      (loaded : DirectoryLoaded live kernel pointer value contents inner)
      (owns : ∀ ptr, owned ptr ↔ ptr = item ∨ inner ptr)

section Completed

variable {region : KernelRegion} {live live' : List Allocation} {start kernel next : Kernel}
  {volume : FatPrivate} {owned : Nat → Prop} {read : StreamRead}

/-- What `fat16_load_fat_directory` has when it is done with the directory: no buffer, or a
buffer for all its entries. -/
theorem fat16FillDirectory_completed (reads : ReadsStreams read)
    (grown : Grown region live live' start kernel owned) (mounted : VolumeLive live' volume kernel)
    {directory : Nat} (own : owned directory)
    (present : kernel.objs directory = some (.fatDirectory {})) {item : FatDirectoryItem}
    {res : Int} (run : (fat16FillDirectory read directory item).run kernel = .ok (res, next)) :
    ∃ live'' value, next.objs directory = some (.fatDirectory value) ∧
      (res ≠ 0 ∧ value.item = 0 ∧ Grown region live live'' start next owned ∨
        ∃ contents inner, DirectoryLoaded live'' next directory value contents inner ∧
          (∀ ptr, inner ptr → ptr = directory ∨ ∀ allocation ∈ live', allocation.ptr ≠ ptr) ∧
          Grown region live live'' start next fun ptr => owned ptr ∨ inner ptr) := by
  have apart : ∀ allocation ∈ live, allocation.ptr ≠ directory :=
    fun allocation member same => grown.fresh allocation member (same ▸ own)
  obtain ⟨home, inHome, atHome⟩ := grown.held directory own
  rw [fat16FillDirectory, Exec.bind_of_ok mounted.loadPrivate_run] at run
  obtain ⟨total, counted, count, filled⟩ := Exec.bind_eq_ok.mp run
  obtain ⟨only, items, rfl, less⟩ :=
    fat16GetTotalItemsForDirectory_completed reads mounted count
  have here : counted.objs directory = some (.fatDirectory {}) := only.kept present rfl
  obtain ⟨contents, value, present', typed, filled⟩ := load_bind_eq_ok.mp filled
  rw [here] at present'
  cases present'
  cases typed
  obtain ⟨_, filled⟩ := store_bind_eq_ok.mp filled
  obtain ⟨buffer, allocated, requested, filled⟩ := Exec.bind_eq_ok.mp filled
  have written := (grown.streams only).setObj apart (by rw [here]; rfl)
    (.fatDirectory { total := items })
  have size : u32 (i32 (u32 (items * sizeofFatDirectoryItem))) = sizeofFatDirectoryItem * items := by
    unfold sizeofFatDirectoryItem u32 i32
    omega
  rw [size] at requested
  have outcome := kmalloc_completed written.invariant (by
    unfold sizeofFatDirectoryItem
    omega) requested
  have here' : (counted.setObj directory (some (.fatDirectory { total := items }))).objs
      directory = _ := Kernel.setObj_objs_self ..
  rcases outcome with ⟨rfl, rfl⟩ | taken
  · obtain ⟨_, value, present', typed, filled⟩ := load_bind_eq_ok.mp filled
    rw [here'] at present'
    cases present'
    cases typed
    obtain ⟨live', filled⟩ := store_bind_eq_ok.mp filled
    rw [if_pos rfl] at filled
    cases filled
    exact ⟨_, _, Kernel.setObj_objs_self .., .inl ⟨by decide, rfl, written.setObj apart live' _⟩⟩
  · -- with or without a block, the buffer is apart from every block before it
    obtain ⟨live'', inner, placed, grown', buffered, unbuffered⟩ : ∃ (live'' : List Allocation)
        (inner : Nat → Prop), Placed region live' live''
          (counted.setObj directory (some (.fatDirectory { total := items })))
          (.bytes (List.replicate (sizeofFatDirectoryItem * items) 0)) buffer allocated ∧
        Grown region live live'' start allocated (fun ptr => owned ptr ∨ inner ptr) ∧
        (items ≠ 0 → ∀ ptr, inner ptr ↔ ptr = directory ∨ ptr = buffer) ∧
        (items = 0 → (∀ ptr, inner ptr ↔ ptr = directory) ∧
          ∀ allocation ∈ live'', allocation.ptr ≠ buffer) := by
      rcases taken with ⟨empty, placed⟩ | ⟨positive, placed⟩
      · refine ⟨_, fun ptr => ptr = directory, placed, (written.placedEmpty placed).congr ?_,
          fun some => absurd empty (Nat.mul_ne_zero (by decide) some),
          fun _ => ⟨fun _ => Iff.rfl, placed.fresh⟩⟩
        exact fun ptr => (or_iff_left_of_imp fun same => same ▸ own).symm
      · refine ⟨_, fun ptr => ptr = directory ∨ ptr = buffer, placed,
          (written.placed placed).congr ?_, fun _ _ => Iff.rfl, fun none => by
            rw [none] at positive
            cases positive⟩
        intro ptr
        constructor
        · rintro (rfl | before)
          · exact .inr (.inr rfl)
          · exact .inl before
        · rintro (before | rfl | rfl)
          · exact .inr before
          · exact .inr own
          · exact .inl rfl
    have apart' : ∀ allocation ∈ live', allocation.ptr ≠ buffer := placed.fresh
    have different : directory ≠ buffer := fun same => apart' home inHome (atHome.trans same)
    have here'' : allocated.objs directory = some (.fatDirectory { total := items }) := by
      rw [← atHome, placed.kept home inHome, atHome, here']
    obtain ⟨_, value, present', typed, filled⟩ := load_bind_eq_ok.mp filled
    rw [here''] at present'
    cases present'
    cases typed
    obtain ⟨present', filled⟩ := store_bind_eq_ok.mp filled
    rw [if_neg placed.notNull] at filled
    obtain ⟨⟨res', out⟩, streamed, delivered, filled⟩ := Exec.bind_eq_ok.mp filled
    obtain ⟨_, final, wrote, done⟩ := Exec.bind_eq_ok.mp filled
    cases done
    have only' := (fat16ReadInternal_streams reads _ _ _ _ _ streamed (.refl _) delivered).1
    have full := only'.kept ((Kernel.setObj_objs_of_ne _ _ different.symm).trans placed.present) rfl
    have inside := only'.kept (Kernel.setObj_objs_self ..) rfl
    obtain ⟨zeros, before, fits, last⟩ := writeBytes_eq_ok wrote
    rw [full] at before
    cases before
    rw [Nat.zero_add, List.length_replicate] at fits
    rw [List.take_zero, List.nil_append, Nat.zero_add] at last
    generalize filled : out ++ List.drop out.length _ = contents at last
    have length : contents.length = sizeofFatDirectoryItem * items := by
      rw [← filled, List.length_append, List.length_drop, List.length_replicate]
      omega
    have empty : contents = [] ↔ items = 0 := by
      rw [← List.length_eq_zero_iff, length]
      unfold sizeofFatDirectoryItem
      omega
    have same : next.objs directory =
        some (.fatDirectory { item := buffer, total := items }) := by
      rw [last]
      exact (Kernel.setObj_objs_of_ne _ _ different).trans inside
    refine ⟨live'', { item := buffer, total := items }, same, .inr ⟨contents, inner, ⟨same,
      ⟨items, rfl, length⟩, by rw [last, Kernel.setObj_objs_self], ?_, ?_⟩, ?_, ?_⟩⟩
    · exact fun some => buffered fun none => some (empty.mpr none)
    · exact fun none => unbuffered (empty.mp none)
    · intro ptr own'
      by_cases none : items = 0
      · exact .inl (((unbuffered none).1 ptr).mp own')
      · refine ((buffered none ptr).mp own').imp_right fun here => ?_
        rw [here]
        exact apart'
    · rw [last]
      exact ((grown'.setObj apart present' _).streams only').setObj
        (fun allocation member => apart' allocation (grown.grown member)) (by rw [full]; rfl) _

/-- A loaded directory is freed with its buffer. -/
theorem fat16FreeDirectory_run (grown : Grown region live live' start kernel owned)
    {directory : Nat} {value : FatDirectory} {contents : List UInt8} {inner : Nat → Prop}
    (loaded : DirectoryLoaded live' kernel directory value contents inner)
    (fresh : ∀ allocation ∈ live, ¬ inner allocation.ptr) :
    ∃ live'' last, (fat16FreeDirectory directory).run kernel = .ok ((), last) ∧
      Grown region live live'' start last (fun ptr => owned ptr ∧ ¬ inner ptr) ∧
      last.objs directory = none ∧
      ∀ ptr, ptr ≠ directory → ptr ≠ value.item → last.objs ptr = kernel.objs ptr := by
  have present := loaded.present
  have opened : (load Obj.fatDirectory? directory).run kernel = .ok (value, kernel) :=
    load_of_obj present rfl
  have null := grown.invariant.null
  have notNull : directory ≠ 0 := fun same => by
    rw [same, null] at present
    cases present
  have buffered : value.item ≠ 0 := fun same => by
    have buffer := loaded.buffer
    rw [same, null] at buffer
    cases buffer
  have different : directory ≠ value.item := Kernel.ne_of_objs present loaded.buffer nofun
  have apart : ∀ allocation ∈ live, allocation.ptr ≠ value.item := by
    intro allocation member
    by_cases empty : contents = []
    · exact (loaded.unbuffered empty).2 allocation (grown.grown member)
    · exact fun same => fresh allocation member ((loaded.buffered empty _).mpr (.inr same))
  obtain ⟨live₁, middle, first, grown₁, gone, kept⟩ :=
    grown.free apart (by rw [loaded.buffer]; rfl)
  have present₁ := (kept directory different).trans present
  obtain ⟨live₂, last, second, grown₂, gone', kept'⟩ := grown₁.free
    (fun allocation member same => fresh allocation member (same ▸ loaded.owns))
    (by rw [present₁]; rfl)
  refine ⟨live₂, last, ?_, grown₂.congr fun ptr => ?_, gone', fun ptr here there =>
    (kept' ptr here).trans (kept ptr there)⟩
  · rw [fat16FreeDirectory, if_neg notNull, Exec.bind_of_ok opened, if_pos buffered,
      Exec.bind_of_ok first]
    exact second
  · by_cases empty : contents = []
    · rw [(loaded.unbuffered empty).1 ptr]
      constructor
      · rintro ⟨⟨own, _⟩, here⟩
        exact ⟨own, here⟩
      · rintro ⟨own, here⟩
        obtain ⟨allocation, member, same⟩ := grown.held ptr own
        exact ⟨⟨own, same ▸ (loaded.unbuffered empty).2 allocation member⟩, here⟩
    · rw [loaded.buffered empty ptr]
      tauto

theorem fat16FreeDirectory_null (kernel : Kernel) :
    (fat16FreeDirectory 0).run kernel = .ok ((), kernel) := by
  rw [fat16FreeDirectory, if_pos rfl, Exec.run_pure]

/-- What `fat16_load_fat_directory` did with a subdirectory: the request for the structure was
refused, or the directory could not be filled and is freed, or it is loaded. -/
theorem fat16LoadFatDirectory_cases (reads : ReadsStreams read)
    (inv : KernelInvariant region live kernel) (mounted : VolumeLive live volume kernel)
    {item : FatDirectoryItem} {directory : Nat}
    (subdirectory : item.attributes &&& fatFileSubdirectory ≠ 0)
    (run : (fat16LoadFatDirectory read item).run kernel = .ok (directory, next)) :
    directory = 0 ∧ next = kernel ∨
      ∃ allocated res middle, (kmalloc sizeofFatDirectory (.fatDirectory {})).run kernel =
          .ok (directory, allocated) ∧
        Placed region live (⟨directory, sizeofFatDirectory⟩ :: live) kernel (.fatDirectory {})
          directory allocated ∧
        (fat16FillDirectory read directory item).run allocated = .ok (res, middle) ∧
        (res ≠ 0 ∧ next.objs directory = none ∧
            (∃ live', Grown region live live' kernel next fun _ => False) ∨
          res = 0 ∧ next = middle ∧ ∃ live' inner value contents,
            Grown region live live' kernel next inner ∧
              DirectoryLoaded live' next directory value contents inner) := by
  rw [fat16LoadFatDirectory, if_neg subdirectory] at run
  obtain ⟨found, allocated, requested, filled⟩ := Exec.bind_eq_ok.mp run
  rcases kmalloc_positive inv (by decide) (by decide) requested with ⟨rfl, rfl⟩ | placed
  · rw [if_pos rfl, Exec.bind_of_ok (fat16FreeDirectory_null _)] at filled
    cases filled
    exact .inl ⟨rfl, rfl⟩
  right
  rw [if_neg placed.notNull] at filled
  obtain ⟨res, middle, fill, rest⟩ := Exec.bind_eq_ok.mp filled
  have grown := ((Grown.refl inv).placed placed).congr fun ptr => or_iff_left not_false
  obtain ⟨live', value, present, outcome⟩ := fat16FillDirectory_completed reads grown
    (mounted.grown grown) rfl placed.present fill
  by_cases failed : res ≠ 0
  · rw [if_pos failed] at rest
    obtain ⟨_, last, freed, done⟩ := Exec.bind_eq_ok.mp rest
    cases done
    refine ⟨allocated, res, middle, requested, placed, fill, .inl ⟨failed, ?_⟩⟩
    rcases outcome with ⟨_, unbuffered, grown'⟩ | ⟨contents, inner, loaded, new, grown'⟩
    · obtain ⟨live'', last', run', grown'', gone, _⟩ := grown'.free
        (fun allocation member => placed.fresh allocation member) (by rw [present]; rfl)
      have opened : (load Obj.fatDirectory? directory).run middle = .ok (value, middle) :=
        load_of_obj present rfl
      rw [fat16FreeDirectory, if_neg placed.notNull, Exec.bind_of_ok opened,
        if_neg (not_not.mpr unbuffered), run'] at freed
      cases freed
      exact ⟨gone, live'', grown''.congr fun ptr => ⟨fun own => own.2 own.1, False.elim⟩⟩
    · have fresh : ∀ allocation ∈ live, ¬ inner allocation.ptr := by
        intro allocation member own
        rcases new _ own with same | apart
        · exact placed.fresh allocation member same
        · exact apart allocation (List.mem_cons_of_mem _ member) rfl
      obtain ⟨live'', last', run', grown'', gone, _⟩ := fat16FreeDirectory_run grown' loaded fresh
      rw [run'] at freed
      cases freed
      refine ⟨gone, live'', grown''.congr fun ptr => ⟨?_, False.elim⟩⟩
      rintro ⟨rfl | own, apart⟩
      · exact apart loaded.owns
      · exact apart own
  · rw [if_neg failed] at rest
    cases rest
    refine ⟨allocated, res, next, requested, placed, fill, .inr ⟨not_not.mp failed, rfl, ?_⟩⟩
    rcases outcome with ⟨unfilled, _, _⟩ | ⟨contents, inner, loaded, _, grown'⟩
    · exact absurd unfilled failed
    · exact ⟨live', inner, value, contents, grown'.congr fun ptr =>
        or_iff_right_of_imp fun same => same ▸ loaded.owns, loaded⟩

/-- **Loading a directory.** The result is a loaded directory or a pointer to nothing. -/
theorem fat16LoadFatDirectory_completed (reads : ReadsStreams read)
    (inv : KernelInvariant region live kernel) (mounted : VolumeLive live volume kernel)
    {item : FatDirectoryItem} {directory : Nat}
    (run : (fat16LoadFatDirectory read item).run kernel = .ok (directory, next)) :
    ∃ live' inner, Grown region live live' kernel next inner ∧
      (next.objs directory = none ∧ (∀ ptr, ¬ inner ptr) ∨
        ∃ value contents, DirectoryLoaded live' next directory value contents inner) := by
  by_cases regular : item.attributes &&& fatFileSubdirectory = 0
  · rw [fat16LoadFatDirectory, if_pos regular, Exec.bind_of_ok (fat16FreeDirectory_null _)] at run
    cases run
    exact ⟨_, _, .refl inv, .inl ⟨inv.null, fun _ => id⟩⟩
  rcases fat16LoadFatDirectory_cases reads inv mounted regular run with
    ⟨rfl, rfl⟩ | ⟨_, _, _, _, _, _, ⟨_, gone, live', grown⟩ |
      ⟨_, rfl, live', inner, value, contents, grown, loaded⟩⟩
  · exact ⟨_, _, .refl inv, .inl ⟨inv.null, fun _ => id⟩⟩
  · exact ⟨live', _, grown, .inl ⟨gone, fun _ => id⟩⟩
  · exact ⟨live', inner, grown, .inr ⟨value, contents, loaded⟩⟩

/-- The item of a subdirectory points to what the load has returned. -/
theorem fat16NewFatItemForDirectoryItem_loads (reads : ReadsStreams read)
    (mounted : VolumeLive live volume kernel) {raw : List UInt8}
    (subdirectory : (FatDirectoryItem.decode raw).attributes &&& fatFileSubdirectory ≠ 0)
    {item directory : Nat} {allocated : Kernel}
    (requested : (kmalloc sizeofFatItem (.fatItem {})).run kernel = .ok (item, allocated))
    (placed : Placed region live (⟨item, sizeofFatItem⟩ :: live) kernel (.fatItem {}) item allocated)
    (loaded : (fat16LoadFatDirectory read (FatDirectoryItem.decode raw)).run allocated =
      .ok (directory, next)) (inv : KernelInvariant region live kernel) :
    (fat16NewFatItemForDirectoryItem read raw).run kernel = .ok (item, next.setObj item
        (some (.fatItem { pointer := directory, type := fatItemTypeDirectory }))) ∧
      next.objs item = some (.fatItem {}) := by
  have grown := ((Grown.refl inv).placed placed).congr fun ptr => or_iff_left not_false
  obtain ⟨_, _, grown', _⟩ :=
    fat16LoadFatDirectory_completed reads placed.invariant (mounted.grown grown) loaded
  have present : next.objs item = some (.fatItem {}) :=
    (grown'.keeps ⟨_, List.mem_cons_self, rfl⟩).obj placed.present rfl
  have opened : (load Obj.fatItem? item).run next = .ok (_, next) := load_of_obj present rfl
  refine ⟨?_, present⟩
  rw [fat16NewFatItemForDirectoryItem, kzalloc, Exec.bind_of_ok requested,
    if_neg placed.notNull, if_pos subdirectory, Exec.bind_of_ok loaded, Exec.bind_of_ok opened,
    Exec.bind_of_ok (store_of_live (by rw [present]; rfl)), Exec.run_pure]

/-- **Making an item.** The result is what the entry is and what the heap can hold of it. -/
theorem fat16NewFatItemForDirectoryItem_completed (reads : ReadsStreams read)
    (inv : KernelInvariant region live kernel) (mounted : VolumeLive live volume kernel)
    {raw : List UInt8} (length : raw.length = sizeofFatDirectoryItem) {item : Nat}
    (run : (fat16NewFatItemForDirectoryItem read raw).run kernel = .ok (item, next)) :
    ∃ live' owned, Grown region live live' kernel next owned ∧
      ItemMade live' next raw item owned := by
  obtain ⟨found, allocated, requested, rest⟩ := Exec.bind_eq_ok.mp run
  rcases kmalloc_positive inv (by decide) (by decide) requested with ⟨rfl, rfl⟩ | placed
  · rw [if_pos rfl] at rest
    cases rest
    exact ⟨_, _, .refl inv, .refused rfl fun _ => id⟩
  · rw [if_neg placed.notNull] at rest
    have grown := ((Grown.refl inv).placed placed).congr fun ptr => or_iff_left not_false
    have here : ∃ allocation ∈ (⟨found, sizeofFatItem⟩ :: live), allocation.ptr = found :=
      ⟨_, List.mem_cons_self, rfl⟩
    have apart : ∀ allocation ∈ live, allocation.ptr ≠ found := placed.fresh
    by_cases subdirectory : (FatDirectoryItem.decode raw).attributes &&& fatFileSubdirectory ≠ 0
    · rw [if_pos subdirectory] at rest
      obtain ⟨directory, middle, loaded, rest⟩ := Exec.bind_eq_ok.mp rest
      obtain ⟨live', inner, grown', outcome⟩ := fat16LoadFatDirectory_completed reads
        placed.invariant (mounted.grown grown) loaded
      have present := (grown'.keeps here).obj placed.present rfl
      obtain ⟨_, value, present', typed, rest⟩ := load_bind_eq_ok.mp rest
      rw [present] at present'
      cases present'
      cases typed
      obtain ⟨still, rest⟩ := store_bind_eq_ok.mp rest
      cases rest
      refine ⟨live', _, (grown.trans grown').setObj apart still _, ?_⟩
      have stays : ∀ {ptr : Nat} {contents : Obj}, middle.objs ptr = some contents →
          contents.fatItem? = none → (middle.setObj item (some (.fatItem
            { pointer := directory, type := fatItemTypeDirectory }))).objs ptr =
              middle.objs ptr := by
        intro ptr contents there other
        refine Kernel.setObj_objs_of_ne _ _ (Kernel.ne_of_objs there present ?_)
        rintro rfl
        cases other
      rcases outcome with ⟨gone, none⟩ | ⟨value, contents, loaded⟩
      · refine .dangling directory subdirectory (Kernel.setObj_objs_self ..) ?_ fun ptr =>
          or_iff_left (none ptr)
        rw [Kernel.setObj_objs_of_ne, gone]
        rintro rfl
        rw [gone] at present
        cases present
      · exact .directory directory value contents inner subdirectory (Kernel.setObj_objs_self ..)
          (loaded.congr (stays loaded.present rfl) (stays loaded.buffer rfl)
            fun empty => (loaded.unbuffered empty).2) fun _ => Iff.rfl
    · rw [if_neg subdirectory] at rest
      obtain ⟨_, value, present', typed, rest⟩ := load_bind_eq_ok.mp rest
      rw [placed.present] at present'
      cases present'
      cases typed
      obtain ⟨still, rest⟩ := store_bind_eq_ok.mp rest
      have written := grown.setObj apart still (.fatItem { type := fatItemTypeFile })
      obtain ⟨copy, copied, cloned, rest⟩ := Exec.bind_eq_ok.mp rest
      rw [fat16CloneDirectoryItem, if_neg (lt_irrefl _)] at cloned
      obtain ⟨pointer, requested', wanted, cloned⟩ := Exec.bind_eq_ok.mp cloned
      have marked := Kernel.setObj_objs_self allocated found
        (some (.fatItem { type := fatItemTypeFile }))
      rcases kmalloc_positive written.invariant (by decide) (by decide) wanted with
        ⟨rfl, rfl⟩ | placed'
      · rw [if_pos rfl] at cloned
        cases cloned
        obtain ⟨_, value, present', typed, rest⟩ := load_bind_eq_ok.mp rest
        rw [marked] at present'
        cases present'
        cases typed
        obtain ⟨still', rest⟩ := store_bind_eq_ok.mp rest
        cases rest
        exact ⟨_, _, written.setObj apart still' _,
          .uncopied (not_not.mp subdirectory) (Kernel.setObj_objs_self ..) fun _ => Iff.rfl⟩
      · rw [if_neg placed'.notNull] at cloned
        obtain ⟨_, filled, wrote, done⟩ := Exec.bind_eq_ok.mp cloned
        cases done
        have different : found ≠ copy := placed'.fresh _ List.mem_cons_self
        rw [List.take_of_length_le length.le] at wrote
        obtain ⟨zeros, before, fits, last⟩ := writeBytes_eq_ok wrote
        rw [placed'.present] at before
        cases before
        rw [List.take_zero, List.nil_append, Nat.zero_add, length,
          List.drop_eq_nil_of_le (by rw [List.length_replicate]), List.append_nil] at last
        have present : copied.objs found = some (.fatItem { type := fatItemTypeFile }) := by
          rw [last, Kernel.setObj_objs_of_ne _ _ different]
          exact (placed'.kept _ List.mem_cons_self).trans marked
        obtain ⟨_, value, present', typed, rest⟩ := load_bind_eq_ok.mp rest
        rw [present] at present'
        cases present'
        cases typed
        obtain ⟨still', rest⟩ := store_bind_eq_ok.mp rest
        cases rest
        have grown' := (written.placed placed').setObj
          (fun allocation member => placed'.fresh _ (List.mem_cons_of_mem _ member))
          (by rw [placed'.present]; rfl) (.bytes raw)
        rw [← last] at grown'
        refine ⟨_, _, grown'.setObj apart still' _, .file copy (not_not.mp subdirectory)
          (Kernel.setObj_objs_self ..) ?_ fun _ => or_comm⟩
        rw [Kernel.setObj_objs_of_ne _ _ different.symm, last, Kernel.setObj_objs_self]

end Completed

section Free

variable {region : KernelRegion} {live live' : List Allocation} {start kernel next : Kernel}
  {owned : Nat → Prop} {item pointer : Nat}

/-- The item of a file is freed with its copy of the entry. -/
theorem fat16FatItemFree_file (grown : Grown region live live' start kernel owned)
    (present : kernel.objs item = some (.fatItem { pointer := pointer, type := fatItemTypeFile }))
    {raw : List UInt8} (copy : kernel.objs pointer = some (.bytes raw))
    (apart : ∀ allocation ∈ live, allocation.ptr ≠ item ∧ allocation.ptr ≠ pointer) :
    ∃ live'' last, (fat16FatItemFree item).run kernel = .ok ((), last) ∧
      Grown region live live'' start last
        (fun ptr => owned ptr ∧ ¬ (ptr = item ∨ ptr = pointer)) ∧
      ∀ ptr, ptr ≠ item → ptr ≠ pointer → last.objs ptr = kernel.objs ptr := by
  have opened : (load Obj.fatItem? item).run kernel = .ok (_, kernel) := load_of_obj present rfl
  have different : item ≠ pointer := Kernel.ne_of_objs present copy nofun
  obtain ⟨live₁, middle, first, grown₁, _, kept⟩ :=
    grown.free (fun allocation member => (apart allocation member).2) (by rw [copy]; rfl)
  obtain ⟨live₂, last, second, grown₂, _, kept'⟩ := grown₁.free
    (fun allocation member => (apart allocation member).1)
    (by rw [kept item different, present]; rfl)
  refine ⟨live₂, last, ?_, grown₂.congr fun ptr => ?_, fun ptr here there =>
    (kept' ptr here).trans (kept ptr there)⟩
  · rw [fat16FatItemFree, Exec.bind_of_ok opened,
      if_neg (show ¬ fatItemTypeFile = fatItemTypeDirectory by decide), if_pos rfl,
      Exec.bind_of_ok first]
    exact second
  · tauto

/-- The item of a directory is freed with the directory. -/
theorem fat16FatItemFree_directory (grown : Grown region live live' start kernel owned)
    (present : kernel.objs item = some (.fatItem
      { pointer := pointer, type := fatItemTypeDirectory }))
    {value : FatDirectory} {contents : List UInt8} {inner : Nat → Prop}
    (loaded : DirectoryLoaded live' kernel pointer value contents inner)
    (apart : ∀ allocation ∈ live, allocation.ptr ≠ item ∧ ¬ inner allocation.ptr) :
    ∃ live'' last, (fat16FatItemFree item).run kernel = .ok ((), last) ∧
      Grown region live live'' start last (fun ptr => owned ptr ∧ ¬ (ptr = item ∨ inner ptr)) ∧
      ∀ ptr, ptr ≠ item → ptr ≠ pointer → ptr ≠ value.item →
        last.objs ptr = kernel.objs ptr := by
  have opened : (load Obj.fatItem? item).run kernel = .ok (_, kernel) := load_of_obj present rfl
  obtain ⟨live₁, middle, first, grown₁, _, kept⟩ := fat16FreeDirectory_run grown loaded
    fun allocation member => (apart allocation member).2
  have present₁ := (kept item (Kernel.ne_of_objs present loaded.present nofun)
    (Kernel.ne_of_objs present loaded.buffer nofun)).trans present
  obtain ⟨live₂, last, second, grown₂, _, kept'⟩ := grown₁.free
    (fun allocation member => (apart allocation member).1) (by rw [present₁]; rfl)
  refine ⟨live₂, last, ?_, grown₂.congr fun ptr => ?_, fun ptr here there beyond =>
    (kept' ptr here).trans (kept ptr there beyond)⟩
  · rw [fat16FatItemFree, Exec.bind_of_ok opened, if_pos rfl, Exec.bind_of_ok first]
    exact second
  · tauto

end Free

end Peachos
