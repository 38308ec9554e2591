import Peachos.Foundation.Resolution
import Peachos.Fs.Open
import Peachos.Kernel.Release

/-! # What a path resolves to

On the disk each directory is a list of entries. The walk along a path returns an item for the
entry that the path resolves to there, taking in each directory the last entry of the name
(`fat16GetDirectoryEntry_resolves`).
-/

namespace Peachos

open CInt Resolution Window

/-- The entries that a lookup in the directory goes over. -/
def FatDirectory.entries (directory : FatDirectory) (contents : List UInt8) : List (List UInt8) :=
  (List.range directory.total.toNat).map (itemBytes contents)

/-- The code compares the name of the entry as equal to a component of a path. -/
def NamedAs (raw name : List UInt8) : Prop := Named raw (partBuffer name)

instance (raw name : List UInt8) : Decidable (NamedAs raw name) :=
  inferInstanceAs (Decidable (Named _ _))

/-- The entry `raw` is one of a subdirectory which has these entries on the disk: as many as a scan
counts from its first cluster on, in the clusters of its chain if these lie at positions that an
`int` can hold. -/
structure Subdirectory (volume : FatPrivate) (drive : Nat → UInt8) (raw : List UInt8)
    (entries : List (List UInt8)) : Prop where
  subdirectory : (FatDirectoryItem.decode raw).attributes &&& fatFileSubdirectory ≠ 0
  counted : CountedAs volume drive (FatDirectoryItem.decode raw) entries.length
  accepted : ChainAccepted volume drive (i32 (fat16GetFirstCluster (FatDirectoryItem.decode raw)))
    (sizeofFatDirectoryItem * entries.length)
  read : ChainPlaced volume drive (i32 (fat16GetFirstCluster (FatDirectoryItem.decode raw))) 0
      (sizeofFatDirectoryItem * entries.length) →
    entries = (List.range entries.length).map (itemBytes (window
      (chainByte volume drive (i32 (fat16GetFirstCluster (FatDirectoryItem.decode raw)))) 0
      (sizeofFatDirectoryItem * entries.length)))

/-- The path leads from the entries of a directory to `raw`, through the directories `trail` of the
disk. -/
abbrev ResolvesOn (volume : FatPrivate) (drive : Nat → UInt8) :
    (entries names : List (List UInt8)) → (trail : List (List (List UInt8))) → List UInt8 → Prop :=
  Resolves NamedAs (Subdirectory volume drive)

section Entries

variable {directory : FatDirectory} {contents name raw : List UInt8}

theorem FatDirectory.entries_getElem? {k : Nat} :
    (directory.entries contents)[k]? = some raw ↔
      k < directory.total.toNat ∧ raw = itemBytes contents k := by
  unfold FatDirectory.entries
  rw [List.getElem?_map, Option.map_eq_some_iff]
  constructor
  · rintro ⟨i, here, rfl⟩
    obtain ⟨inside, same⟩ := List.getElem?_eq_some_iff.mp here
    rw [List.length_range] at inside
    rw [List.getElem_range] at same
    exact ⟨inside, by rw [same]⟩
  · rintro ⟨inside, rfl⟩
    exact ⟨k, List.getElem?_range inside, rfl⟩

/-- The last entry that matches. -/
theorem Matches.lastNamed {k : Nat} (named : Matches directory contents (partBuffer name) k)
    (last : ∀ j, Matches directory contents (partBuffer name) j → j ≤ k) :
    LastNamed NamedAs (directory.entries contents) name (itemBytes contents k) :=
  ⟨k, FatDirectory.entries_getElem?.mpr ⟨named.1, rfl⟩, named.2, fun j _ there named' => by
    obtain ⟨inside, rfl⟩ := FatDirectory.entries_getElem?.mp there
    exact last j ⟨inside, named'⟩⟩

end Entries

/-- The objects of the kernel are some of those at the start. -/
def OnlyOld (start kernel : Kernel) : Prop :=
  ∀ ptr contents, kernel.objs ptr = some contents → start.objs ptr = some contents

section Old

variable {start next : Kernel} {item : Nat}

theorem load_onlyOld {α : Type} (view : Obj → Option α) (ptr : Nat) :
    Exec.Ensures (OnlyOld start) (load view ptr) fun _ => True := by
  intro kernel value final kept run
  obtain ⟨_, rfl⟩ := load_eq_ok.mp run
  exact ⟨kept, trivial⟩

theorem kfree_onlyOld (ptr : Nat) :
    Exec.Ensures (OnlyOld start) (kfree ptr) fun _ => True := by
  intro kernel done final kept run
  refine ⟨fun other contents present => ?_, trivial⟩
  by_cases same : other = ptr
  · subst same
    obtain ⟨live, middle, read, rest⟩ := Exec.bind_eq_ok.mp run
    cases read
    split at rest
    · obtain ⟨_, freed, _, rest⟩ := Exec.bind_eq_ok.mp rest
      cases rest
      rw [Kernel.setObj_objs_self] at present
      cases present
    · cases rest
  · exact kept other contents ((kfree_kept run same).symm.trans present)

theorem fat16FreeDirectory_onlyOld (directory : Nat) :
    Exec.Ensures (OnlyOld start) (fat16FreeDirectory directory) fun _ => True := by
  refine .ite (fun _ => .pure trivial) fun _ => (load_onlyOld _ _).bind fun value _ => ?_
  refine .ite (fun _ => ?_) fun _ => kfree_onlyOld _
  exact (kfree_onlyOld _).bind fun _ _ => kfree_onlyOld _

theorem fat16FatItemFree_onlyOld (item : Nat) :
    Exec.Ensures (OnlyOld start) (fat16FatItemFree item) fun _ => True := by
  refine (load_onlyOld _ _).bind fun value _ => .ite (fun _ => ?_) fun _ => .ite (fun _ => ?_)
    fun _ => kfree_onlyOld item
  · exact (fat16FreeDirectory_onlyOld _).bind fun _ _ => kfree_onlyOld item
  · exact (kfree_onlyOld _).bind fun _ _ => kfree_onlyOld item

/-- What is there after the item that the walk comes from is freed was there before. -/
theorem FreesItem.old (freed : FreesItem item start next) : OnlyOld start next := by
  rcases freed with ⟨_, rfl⟩ | ⟨_, run⟩
  · exact fun _ _ => id
  · exact (fat16FatItemFree_onlyOld item start () next (fun _ _ => id) run).1

end Old

section Load

variable {region : KernelRegion} {live : List Allocation} {kernel next : Kernel}
  {volume : FatPrivate} {item : Nat} {raw : List UInt8} {value : FatDirectory}

/-- The directory that was filled has the entries that the disk has. -/
theorem DirectoryFilled.subdirectory {live' : List Allocation} {start : Kernel} {directory : Nat}
    {entries : List (List UInt8)} {buffer : Nat} {out : List UInt8}
    (filled : DirectoryFilled volume start kernel next directory (FatDirectoryItem.decode raw)
      entries buffer out) (inv : KernelInvariant region live' kernel)
    (subdirectory : (FatDirectoryItem.decode raw).attributes &&& fatFileSubdirectory ≠ 0) :
    ∃ contents, next.objs buffer = some (.bytes contents) ∧
      Subdirectory volume start.drive raw
        (FatDirectory.entries { item := buffer, total := liveCount entries } contents) := by
  have length : ∀ contents, (FatDirectory.entries { item := buffer, total := liveCount entries }
      contents).length = liveCount entries := by
    intro contents
    rw [FatDirectory.entries, List.length_map, List.length_range, Int.toNat_natCast]
  have chain := filled.chain inv
  have bounded := inv.heap.grantedSize filled.granted
  refine ⟨_, filled.contents, subdirectory, ?_, ?_, fun placed => ?_⟩
  · rw [length]
    exact ⟨entries, filled.scanned, rfl⟩
  · rw [length]
    exact chain
  · rw [length] at placed ⊢
    obtain ⟨before, after, mounted, drive, delivered⟩ := filled.read
    rw [← drive] at chain placed
    obtain ⟨out', _, delivered', full, exact⟩ :=
      fat16ReadInternal_accepted mounted chain (by omega)
    rw [readSize_eq bounded, delivered'] at delivered
    obtain ⟨⟨_, rfl⟩, _⟩ := Prod.mk.inj (Except.ok.inj delivered)
    rw [FatDirectory.entries, Int.toNat_natCast, ← drive, ← exact placed,
      List.drop_eq_nil_of_le (by rw [List.length_replicate, full]), List.append_nil]

/-- The item is the one of the entry `raw`: of a file, which has a copy of the entry where there was
memory for it, of a directory with the entries that the disk has, or of one that was not loaded. -/
inductive ItemOf (volume : FatPrivate) (drive : Nat → UInt8) (kernel : Kernel) (item : Nat)
    (raw : List UInt8) : Prop
  | file (pointer : Nat)
      (regular : (FatDirectoryItem.decode raw).attributes &&& fatFileSubdirectory = 0)
      (present : kernel.objs item = some (.fatItem { pointer := pointer, type := fatItemTypeFile }))
      (copy : pointer = 0 ∨ kernel.objs pointer = some (.bytes raw))
  | directory (pointer : Nat) (value : FatDirectory) (contents : List UInt8)
      (present : kernel.objs item = some (.fatItem
        { pointer := pointer, type := fatItemTypeDirectory }))
      (there : kernel.objs pointer = some (.fatDirectory value))
      (buffer : kernel.objs value.item = some (.bytes contents))
      (leads : Subdirectory volume drive raw (value.entries contents))
  | dangling (pointer : Nat)
      (subdirectory : (FatDirectoryItem.decode raw).attributes &&& fatFileSubdirectory ≠ 0)
      (present : kernel.objs item = some (.fatItem
        { pointer := pointer, type := fatItemTypeDirectory }))
      (freed : kernel.objs pointer = none)

/-- The directory of an item that was made has the entries that the disk has. -/
theorem fat16NewFatItemForDirectoryItem_leads (inv : KernelInvariant region live kernel)
    (held : VolumeLive live volume kernel) (bounded : VolumeBounded volume kernel)
    (subdirectory : (FatDirectoryItem.decode raw).attributes &&& fatFileSubdirectory ≠ 0)
    (run : (fat16NewFatItemForDirectoryItem diskstreamerRead raw).run kernel = .ok (item, next))
    (reached : DirectoryOf next item value) :
    ∃ contents, next.objs value.item = some (.bytes contents) ∧
      Subdirectory volume kernel.drive raw (value.entries contents) := by
  have reads := diskstreamerRead_readsStreams
  obtain ⟨allocated, requested⟩ := fat16NewFatItemForDirectoryItem_requested run
  rcases kmalloc_positive inv (show 1 ≤ sizeofFatItem by decide) (by decide) requested with
    ⟨rfl, rfl⟩ | placed
  · rw [fat16NewFatItemForDirectoryItem, kzalloc, Exec.bind_of_ok requested, if_pos rfl] at run
    cases run
    exact absurd rfl (reached.notNull inv.null)
  have grown := ((Grown.refl inv).placed placed).congr fun ptr => or_iff_left not_false
  obtain ⟨directory, middle, loaded⟩ : ∃ directory middle, (fat16LoadFatDirectory
      diskstreamerRead (FatDirectoryItem.decode raw)).run allocated = .ok (directory, middle) := by
    rw [fat16NewFatItemForDirectoryItem, kzalloc, Exec.bind_of_ok requested,
      if_neg placed.notNull, if_pos subdirectory] at run
    obtain ⟨directory, middle, loaded, _⟩ := Exec.bind_eq_ok.mp run
    exact ⟨directory, middle, loaded⟩
  obtain ⟨made, untouched⟩ := fat16NewFatItemForDirectoryItem_loads reads held subdirectory
    requested placed loaded inv
  rw [made] at run
  cases run
  obtain ⟨pointer, present, there⟩ := reached
  rw [Kernel.setObj_objs_self] at present
  cases present
  have notItem : directory ≠ item := by
    rintro rfl
    rw [Kernel.setObj_objs_self] at there
    cases there
  rw [Kernel.setObj_objs_of_ne _ _ notItem] at there
  rcases fat16LoadFatDirectory_cases reads placed.invariant (held.grown grown) subdirectory loaded
    with ⟨rfl, rfl⟩ | ⟨reserved, res, _, requested', placed', fill, ⟨_, gone, _⟩ | ⟨rfl, rfl, _⟩⟩
  · rw [placed.invariant.null] at there
    cases there
  · rw [gone] at there
    cases there
  have grown' := ((Grown.refl placed.invariant).placed placed').congr
    fun ptr => or_iff_left not_false
  obtain ⟨entries, buffer, out, filled⟩ := fat16FillDirectory_filled (held.grown grown)
    (bounded.grown grown) grown' rfl placed'.present fill
  rw [filled.present] at there
  cases there
  obtain ⟨contents, bytes, leads⟩ := filled.subdirectory placed'.invariant subdirectory
  rw [grown.drive] at leads
  refine ⟨contents, ?_, leads⟩
  have apart : buffer ≠ item := Kernel.ne_of_objs bytes untouched fun same => by cases same
  rw [Kernel.setObj_objs_of_ne _ _ apart]
  exact bytes

/-- What an item is one of. -/
theorem fat16NewFatItemForDirectoryItem_itemOf (inv : KernelInvariant region live kernel)
    (held : VolumeLive live volume kernel) (bounded : VolumeBounded volume kernel)
    (length : raw.length = sizeofFatDirectoryItem)
    (run : (fat16NewFatItemForDirectoryItem diskstreamerRead raw).run kernel = .ok (item, next))
    (notNull : item ≠ 0) : ItemOf volume kernel.drive next item raw := by
  obtain ⟨_, _, _, made⟩ := fat16NewFatItemForDirectoryItem_completed
    diskstreamerRead_readsStreams inv held length run
  cases made with
  | refused null _ => exact absurd null notNull
  | uncopied regular present _ => exact .file 0 regular present (.inl rfl)
  | file pointer regular present copy _ => exact .file pointer regular present (.inr copy)
  | dangling pointer subdirectory present freed _ =>
      exact .dangling pointer subdirectory present freed
  | directory pointer value _ _ subdirectory present loaded _ =>
      obtain ⟨contents, bytes, leads⟩ := fat16NewFatItemForDirectoryItem_leads inv held bounded
        subdirectory run ⟨pointer, present, loaded.present⟩
      exact .directory pointer value contents present loaded.present bytes leads

/-- **A completed search makes the item of the last entry of the name.** -/
theorem fat16FindItemInDirectory_itemOf (inv : KernelInvariant region live kernel)
    (held : VolumeLive live volume kernel) (bounded : VolumeBounded volume kernel)
    {directory : FatDirectory} {contents name : List UInt8}
    (target : SearchTarget live kernel directory contents)
    (run : (fat16FindItemInDirectory diskstreamerRead directory (partBuffer name)).run kernel =
      .ok (item, next)) (notNull : item ≠ 0) :
    ∃ raw, LastNamed NamedAs (directory.entries contents) name raw ∧
      ItemOf volume kernel.drive next item raw := by
  rcases fat16FindItemInDirectory_last diskstreamerRead_readsStreams inv held target run with
    ⟨_, null, _⟩ | ⟨k, reached, live', all, made⟩
  · exact absurd null notNull
  · have itemOf := fat16NewFatItemForDirectoryItem_itemOf made.grown.invariant
      (held.grown made.grown) (bounded.grown made.grown) (length_itemBytes made.inside) made.making
      notNull
    rw [made.grown.drive] at itemOf
    exact ⟨_, made.last.1.lastNamed made.last.2, itemOf⟩

/-- The item stays the one of its entry while the walk frees the item that it came from. -/
theorem ItemMade.itemOf {found : Kernel} {drive : Nat → UInt8} {raw' : List UInt8}
    {owned : Nat → Prop} (made : ItemMade live next raw' item owned) (old : OnlyOld found next)
    (itemOf : ItemOf volume drive found item raw) (notNull : item ≠ 0) :
    ItemOf volume drive next item raw := by
  cases made with
  | refused null _ => exact absurd null notNull
  | uncopied _ present _ =>
      have present' := old _ _ present
      cases itemOf with
      | file pointer regular present'' _ =>
          rw [present''] at present'
          cases present'
          exact .file 0 regular present (.inl rfl)
      | directory _ _ _ present'' =>
          rw [present''] at present'
          cases present'
      | dangling _ _ present'' =>
          rw [present''] at present'
          cases present'
  | file pointer _ present copy _ =>
      have present' := old _ _ present
      have copy' := old _ _ copy
      cases itemOf with
      | file _ regular present'' copy'' =>
          rw [present''] at present'
          cases present'
          refine .file pointer regular present (copy''.imp_right fun same => ?_)
          rw [same] at copy'
          cases copy'
          exact copy
      | directory _ _ _ present'' =>
          rw [present''] at present'
          cases present'
      | dangling _ _ present'' =>
          rw [present''] at present'
          cases present'
  | dangling pointer _ present freed _ =>
      have present' := old _ _ present
      cases itemOf with
      | file _ _ present'' _ =>
          rw [present''] at present'
          cases present'
      | directory _ _ _ _ _ _ leads => exact .dangling pointer leads.subdirectory present freed
      | dangling _ subdirectory _ _ => exact .dangling pointer subdirectory present freed
  | directory pointer value contents _ _ present loaded _ =>
      have present' := old _ _ present
      have there' := old _ _ loaded.present
      have buffer' := old _ _ loaded.buffer
      cases itemOf with
      | file _ _ present'' _ =>
          rw [present''] at present'
          cases present'
      | directory _ _ _ present'' there'' buffer'' leads =>
          rw [present''] at present'
          cases present'
          rw [there''] at there'
          cases there'
          rw [buffer''] at buffer'
          cases buffer'
          exact .directory pointer value contents present loaded.present loaded.buffer leads
      | dangling _ _ present'' freed =>
          rw [present''] at present'
          cases present'
          rw [freed] at there'
          cases there'

/-- The directory of an item has the entries that the disk has. -/
theorem ItemOf.leads {drive : Nat → UInt8} (itemOf : ItemOf volume drive kernel item raw)
    (reached : DirectoryOf kernel item value) {contents : List UInt8}
    (buffer : kernel.objs value.item = some (.bytes contents)) :
    Subdirectory volume drive raw (value.entries contents) := by
  obtain ⟨pointer, present, there⟩ := reached
  cases itemOf with
  | file _ _ present' _ =>
      rw [present'] at present
      cases present
  | directory _ _ _ present' there' buffer' leads =>
      rw [present'] at present
      cases present
      rw [there'] at there
      cases there
      rw [buffer'] at buffer
      cases buffer
      exact leads
  | dangling _ _ present' freed =>
      rw [present'] at present
      cases present
      rw [freed] at there
      cases there

end Load

section Walk

variable {region : KernelRegion} {live live' : List Allocation} {start kernel last : Kernel}
  {volume : FatPrivate} {path current part item result : Nat} {directory : FatDirectory}
  {contents : List UInt8} {names : List (List UInt8)} {ptrs : List Nat} {all mine : Nat → Prop}

/-- **The rest of a walk**, from a directory on. -/
theorem Holding.resolves (root : RootLive live volume start) (bounded : VolumeBounded volume start)
    (notNull : result ≠ 0) :
    ∀ {names : List (List UInt8)} {live' : List Allocation} {kernel : Kernel} {current part : Nat}
      {directory : FatDirectory} {contents : List UInt8} {ptrs : List Nat} {all mine : Nat → Prop},
      Holding region live live' start kernel all mine current directory contents →
      (current = 0 → directory = volume.rootDirectory) → PathLive live start part names ptrs →
      Completes diskstreamerRead start path kernel current directory part result last →
      ∃ trail raw, ResolvesOn volume start.drive (directory.entries contents) names trail raw ∧
        ItemOf volume start.drive last result raw := by
  have reads := diskstreamerRead_readsStreams
  intro names
  induction names with
  | nil =>
      intro live' kernel current part directory contents ptrs all mine holding _ pathLive run
      exact absurd pathLive.parts.1
        (run.notNull root.volumeLive.fsPrivate holding.grown.invariant.null)
  | cons name names ih =>
      intro live' kernel current part directory contents ptrs all mine holding atRoot pathLive run
      obtain ⟨live'', found, next, value, _, item, add, owned, raw', rest, _, turn, _, _, outcome⟩ :=
        holding.turn reads root atRoot pathLive run
      obtain ⟨_, _, _, _, _, cons⟩ := pathLive.uncons
        (run.notNull root.volumeLive.fsPrivate holding.grown.invariant.null)
      cases cons.names
      have here := turn.here
      rw [(holding.grown.keeps cons.partHeld).obj cons.part rfl] at here
      cases here
      have named := turn.named
      rw [(holding.grown.keeps cons.nameHeld).obj cons.name rfl] at named
      cases named
      have inv := holding.grown.invariant
      have drive := holding.grown.drive
      have itemOf : item ≠ 0 → ∃ raw, LastNamed NamedAs (directory.entries contents) name raw ∧
          ItemOf volume start.drive next item raw := by
        intro itemNotNull
        obtain ⟨raw, here, itemOf⟩ := fat16FindItemInDirectory_itemOf inv
          (root.volumeLive.grown holding.grown) (bounded.grown holding.grown) holding.target
          turn.search itemNotNull
        rw [drive] at itemOf
        exact ⟨raw, here, turn.stepped.made.itemOf turn.freed.old itemOf itemNotNull⟩
      rcases outcome with ⟨ends, rfl, rfl⟩ | ⟨_, _, null, _⟩ | ⟨_, below, reached, run⟩
      · obtain ⟨raw, here, itemOf⟩ := itemOf notNull
        have noMore := ends.resolve_left notNull
        have left := cons.left.parts
        cases names with
        | nil => exact ⟨[], raw, .last here, itemOf⟩
        | cons _ _ => exact absurd noMore left.1
      · exact absurd null notNull
      · obtain ⟨contents', holding'⟩ := turn.stepped.holding holding.within reached
        have itemNotNull := reached.notNull holding'.grown.invariant.null
        obtain ⟨raw, here, itemOf⟩ := itemOf itemNotNull
        obtain ⟨trail, target, resolves, made⟩ :=
          ih holding' (fun null => absurd null itemNotNull) cons.left run
        exact ⟨_ :: trail, target, .down here (itemOf.leads reached holding'.target.buffer) resolves,
          made⟩

/-- **What the walk along a path returns** is the item of the entry that the path resolves to. -/
theorem fat16GetDirectoryEntry_resolves (inv : KernelInvariant region live start)
    (root : RootLive live volume start) (bounded : VolumeBounded volume start)
    (buffer : start.objs volume.rootDirectory.item = some (.bytes contents))
    (pathLive : PathLive live start path names ptrs)
    (run : (fat16GetDirectoryEntry diskstreamerRead path).run start = .ok (item, last))
    (notNull : item ≠ 0) :
    ∃ trail raw,
      ResolvesOn volume start.drive (volume.rootDirectory.entries contents) names trail raw ∧
        ItemOf volume start.drive last item raw := by
  have holding : Holding region live live start start (fun _ => False) (fun _ => False) 0
      volume.rootDirectory contents :=
    ⟨.refl inv, ⟨buffer, .inr root.held⟩, .inl ⟨rfl, fun _ => id⟩, fun _ => False.elim⟩
  exact holding.resolves root bounded notNull (fun _ => rfl) pathLive (.inl ⟨rfl, rfl, rfl, run⟩)

/-- The item stays the one of its entry where a descriptor of the filesystem is written. -/
theorem ItemOf.setDescriptor {drive : Nat → UInt8} {raw : List UInt8} {descriptor : Nat}
    {before after : FatFileDescriptor} (itemOf : ItemOf volume drive kernel item raw)
    (there : kernel.objs descriptor = some (.fatFileDescriptor before)) :
    ItemOf volume drive (kernel.setObj descriptor (some (.fatFileDescriptor after))) item raw := by
  have kept : ∀ {ptr : Nat} {contents : Obj}, kernel.objs ptr = some contents →
      contents.fatFileDescriptor? = none →
      (kernel.setObj descriptor (some (.fatFileDescriptor after))).objs ptr = some contents := by
    intro ptr contents present other
    rw [Kernel.setObj_objs_of_ne _ _ (Kernel.ne_of_objs present there ?_), present]
    rintro rfl
    cases other
  cases itemOf with
  | file pointer regular present copy =>
      exact .file pointer regular (kept present rfl) (copy.imp_right (kept · rfl))
  | directory pointer value contents present directory buffer leads =>
      exact .directory pointer value contents (kept present rfl) (kept directory rfl)
        (kept buffer rfl) leads
  | dangling pointer subdirectory present freed =>
      refine .dangling pointer subdirectory (kept present rfl) ?_
      rw [Kernel.setObj_objs_of_ne _ _ fun same => ?_, freed]
      rw [same, there] at freed
      cases freed

/-- The descriptor is at position 0 of the item of the entry `raw`. -/
def DescriptorOn (volume : FatPrivate) (drive : Nat → UInt8) (kernel : Kernel) (descriptor : Nat)
    (raw : List UInt8) : Prop :=
  ∃ item, kernel.objs descriptor = some (.fatFileDescriptor { item := item, pos := 0 }) ∧
    ItemOf volume drive kernel item raw

/-- **What `fat16_open` opens.** For every image and path, the descriptor that it returns is one of
the entry that the path resolves to on the disk. -/
theorem fat16Open_resolves (inv : KernelInvariant region live kernel)
    (root : RootLive live volume kernel) (bounded : VolumeBounded volume kernel)
    (buffer : kernel.objs volume.rootDirectory.item = some (.bytes contents))
    (pathLive : PathLive live kernel path names ptrs) {mode value : Nat} {next : Kernel}
    (run : (fat16Open diskstreamerRead path mode).run kernel = .ok (value, next))
    (succeeds : isErr value = false) :
    ∃ trail raw,
      ResolvesOn volume kernel.drive (volume.rootDirectory.entries contents) names trail raw ∧
        DescriptorOn volume kernel.drive next value raw := by
  obtain ⟨_, start, last, item, starts, entry, notNull, _, rfl⟩ :=
    fat16Open_walked inv run succeeds
  have grown := starts.grown inv
  have held : ∃ allocation ∈ (⟨value, sizeofFatItem⟩ :: live : List Allocation),
      allocation.ptr = value := ⟨_, List.mem_cons_self, rfl⟩
  obtain ⟨_, _, _, _, grown', _⟩ := fat16GetDirectoryEntry_made diskstreamerRead_readsStreams
    grown.invariant (root.grown grown) (pathLive.grown grown) entry
  obtain ⟨trail, raw, resolves, itemOf⟩ := fat16GetDirectoryEntry_resolves grown.invariant
    (root.grown grown) (bounded.grown grown) ((grown.keeps root.held).obj buffer rfl)
    (pathLive.grown grown) entry notNull
  rw [grown.drive] at resolves itemOf
  exact ⟨trail, raw, resolves, item, Kernel.setObj_objs_self ..,
    itemOf.setDescriptor ((grown'.keeps held).obj starts.placed.present rfl)⟩

end Walk

end Peachos
