import Peachos.Fs.Lookup
import Peachos.Fs.PathSpec

/-! # The walk along a path

`fat16_get_directory_entry` looks a component up, frees the item it comes from and goes on with the
one it has found. `Walked` says which directories the walk comes to; at each of them it holds the
item of the directory, and what else it has allocated is lost.
-/

namespace Peachos

open CInt

/-- The parts of the path are live. -/
structure PathLive (live : List Allocation) (kernel : Kernel) (path : Nat)
    (names : List (List UInt8)) (ptrs : List Nat) : Prop where
  parts : PartList kernel path names ptrs
  held : ∀ ptr ∈ ptrs, ∃ allocation ∈ live, allocation.ptr = ptr

/-- The item is one of a directory, which is `directory`. -/
def DirectoryOf (kernel : Kernel) (item : Nat) (directory : FatDirectory) : Prop :=
  ∃ pointer, kernel.objs item =
      some (.fatItem { pointer := pointer, type := fatItemTypeDirectory }) ∧
    kernel.objs pointer = some (.fatDirectory directory)

theorem DirectoryOf.notNull {kernel : Kernel} {item : Nat} {directory : FatDirectory}
    (reached : DirectoryOf kernel item directory) (null : kernel.objs 0 = none) : item ≠ 0 := by
  rintro rfl
  obtain ⟨_, present, _⟩ := reached
  rw [null] at present
  cases present

/-- The item that the walk comes from is freed; at the root there is none. -/
def FreesItem (item : Nat) (kernel next : Kernel) : Prop :=
  item = 0 ∧ next = kernel ∨ item ≠ 0 ∧ (fat16FatItemFree item).run kernel = .ok ((), next)

/-- The walk from `start` along `path` has come to a directory, through the item `current`, and
looks the name of `part` up next. -/
inductive Walked (read : StreamRead) (start : Kernel) (path : Nat) :
    (kernel : Kernel) → (current : Nat) → (directory : FatDirectory) → (part : Nat) → Prop
  | root {volume : FatPrivate}
      (mounted : start.objs start.disk.fsPrivate = some (.fatPrivate volume)) :
      Walked read start path start 0 volume.rootDirectory path
  | down {kernel found next : Kernel} {current part item : Nat} {directory below : FatDirectory}
      {value : PathPart} {name : List UInt8}
      (above : Walked read start path kernel current directory part)
      (here : kernel.objs part = some (.pathPart value))
      (named : kernel.objs value.part = some (.bytes name))
      (search : (fat16FindItemInDirectory read directory name).run kernel = .ok (item, found))
      (freed : FreesItem current found next) (reached : DirectoryOf next item below)
      (more : value.next ≠ 0) : Walked read start path next item below value.next

section Items

variable {region : KernelRegion} {live live' : List Allocation} {start kernel found next : Kernel}
  {directory : FatDirectory} {contents name raw : List UInt8} {item current : Nat}
  {all mine owned : Nat → Prop}

/-- An item that was made stays while live objects that are not its own are freed. -/
theorem ItemMade.of_kept (made : ItemMade live kernel raw item owned) {gone : Nat → Prop}
    (kept : ∀ ptr, ¬ gone ptr → next.objs ptr = kernel.objs ptr)
    (apart : ∀ ptr, gone ptr → (∃ allocation ∈ live, allocation.ptr = ptr) ∧ ¬ owned ptr ∧
      kernel.objs ptr ≠ none)
    (fewer : ∀ allocation ∈ live', ∃ other ∈ live, other.ptr = allocation.ptr) :
    ItemMade live' next raw item owned := by
  have own : ∀ ptr, owned ptr → next.objs ptr = kernel.objs ptr :=
    fun ptr here => kept ptr fun there => (apart ptr there).2.1 here
  cases made with
  | refused null none => exact .refused null none
  | uncopied regular present owns =>
      exact .uncopied regular ((own item ((owns _).mpr rfl)).trans present) owns
  | file pointer regular present copy owns =>
      exact .file pointer regular ((own item ((owns _).mpr (.inl rfl))).trans present)
        ((own pointer ((owns _).mpr (.inr rfl))).trans copy) owns
  | dangling pointer subdirectory present freed owns =>
      refine .dangling pointer subdirectory ((own item ((owns _).mpr rfl)).trans present) ?_ owns
      rw [kept pointer fun there => (apart pointer there).2.2 freed, freed]
  | directory pointer value contents inner subdirectory present loaded owns =>
      refine .directory pointer value contents inner subdirectory
        ((own item ((owns _).mpr (.inl rfl))).trans present)
        (loaded.congr (own pointer ((owns _).mpr (.inr loaded.owns))) ?_ ?_) owns
      · by_cases empty : contents = []
        · refine kept _ fun there => ?_
          obtain ⟨⟨allocation, member, same⟩, _⟩ := apart _ there
          exact (loaded.unbuffered empty).2 allocation member same
        · exact own _ ((owns _).mpr (.inr ((loaded.buffered empty _).mpr (.inr rfl))))
      · intro empty allocation member same
        obtain ⟨other, member', same'⟩ := fewer allocation member
        exact (loaded.unbuffered empty).2 other member' (same'.trans same)

/-- Several entries match the name, and there is a free block for the item of the first one. -/
def Several (kernel : Kernel) (directory : FatDirectory) (contents name : List UInt8) : Prop :=
  1 ≤ kernel.heap.freeBlocks ∧ ∃ j k, j < k ∧ Matches directory contents name j ∧
    Matches directory contents name k

/-- The item was made for the one entry that matches; without one, or without a free block, it is
null. -/
def MadeFor (kernel : Kernel) (directory : FatDirectory) (contents name raw : List UInt8)
    (item : Nat) : Prop :=
  item = 0 ∧ ((∀ k, ¬ Matches directory contents name k) ∨ kernel.heap.freeBlocks = 0) ∨
    item ≠ 0 ∧ 1 ≤ kernel.heap.freeBlocks ∧ ∃ k, Matches directory contents name k ∧
      (∀ j, Matches directory contents name j → j = k) ∧ raw = itemBytes contents k

theorem MadeFor.not_several (madeFor : MadeFor kernel directory contents name raw item) :
    ¬ Several kernel directory contents name := by
  rintro ⟨free, i, j, less, first, last⟩
  rcases madeFor with ⟨_, none | full⟩ | ⟨_, _, k, _, only, _⟩
  · exact none i first
  · omega
  · rw [only i first, only j last] at less
    exact lt_irrefl _ less

/-- What a lookup allocated is the item it returned, unless several entries match. -/
theorem Searched.outcome (inv : KernelInvariant region live kernel)
    (searched : Searched region live kernel directory contents name item found) :
    ∃ live' add raw owned, Grown region live live' kernel found add ∧
      ItemMade live' found raw item owned ∧ (∀ ptr, owned ptr → add ptr) ∧
      ((∀ ptr, add ptr → owned ptr) ∧ MadeFor kernel directory contents name raw item ∨
        Several kernel directory contents name ∧ ∃ ptr, add ptr ∧ ¬ owned ptr) := by
  cases searched with
  | unnamed none null same =>
      subst same
      exact ⟨live, _, [], fun _ => False, .refl inv, .refused null fun _ => id, fun _ => id,
        .inl ⟨fun _ => id, .inl ⟨null, .inl none⟩⟩⟩
  | full full null same =>
      subst same
      exact ⟨live, _, [], fun _ => False, .refl inv, .refused null fun _ => id, fun _ => id,
        .inl ⟨fun _ => id, .inl ⟨null, .inr full⟩⟩⟩
  | one k named only free notNull live' owned grown made =>
      exact ⟨live', owned, _, owned, grown, made, fun _ => id, .inl ⟨fun _ => id,
        .inr ⟨notNull, free, k, named, only, rfl⟩⟩⟩
  | several j k before first last free live' all owned grown made within left =>
      exact ⟨live', all, _, owned, grown, made, within, .inr ⟨⟨free, j, k, before, first, last⟩,
        left⟩⟩

end Items

/-- The walk has allocated the blocks in `all` and is at a directory; those in `mine` belong to the
item of the directory. -/
structure Holding (region : KernelRegion) (live live' : List Allocation) (start kernel : Kernel)
    (all mine : Nat → Prop) (current : Nat) (directory : FatDirectory) (contents : List UInt8) :
    Prop where
  grown : Grown region live live' start kernel all
  target : SearchTarget live' kernel directory contents
  item : current = 0 ∧ (∀ ptr, ¬ mine ptr) ∨ current ≠ 0 ∧ ∃ pointer inner,
    kernel.objs current = some (.fatItem { pointer := pointer, type := fatItemTypeDirectory }) ∧
      DirectoryLoaded live' kernel pointer directory contents inner ∧
      ∀ ptr, mine ptr ↔ ptr = current ∨ inner ptr
  within : ∀ ptr, mine ptr → all ptr

section Step

variable {read : StreamRead} {region : KernelRegion} {live live' : List Allocation}
  {start kernel found next : Kernel} {directory : FatDirectory} {contents name : List UInt8}
  {item current : Nat} {all mine : Nat → Prop}

/-- The walk after one lookup and the freeing of the item that it came from: it holds the item that
was made, and has lost what it held besides. -/
structure Stepped (region : KernelRegion) (live live' : List Allocation) (start kernel next : Kernel)
    (directory : FatDirectory) (contents name : List UInt8) (all mine add owned : Nat → Prop)
    (raw : List UInt8) (item : Nat) : Prop where
  grown : Grown region live live' start next fun ptr => (all ptr ∨ add ptr) ∧ ¬ mine ptr
  made : ItemMade live' next raw item owned
  within : ∀ ptr, owned ptr → add ptr
  apart : ∀ ptr, add ptr → ¬ all ptr
  tight : (∀ ptr, add ptr → owned ptr) ∧ MadeFor kernel directory contents name raw item ∨
    Several kernel directory contents name ∧ ∃ ptr, add ptr ∧ ¬ owned ptr

/-- In a directory without entries nothing is found. -/
theorem Searched.of_empty (searched : Searched region live kernel directory contents name item found)
    (none : ∀ k, ¬ Matches directory contents name k) : item = 0 ∧ found = kernel := by
  cases searched with
  | unnamed _ null same => exact ⟨null, same⟩
  | full _ null same => exact ⟨null, same⟩
  | one k named => exact absurd named (none k)
  | several j k _ first => exact absurd first (none j)

/-- The item of a directory with entries is freed, and nothing else, after others were made. -/
theorem Holding.frees {live₁ : List Allocation} {add : Nat → Prop}
    (holding : Holding region live live' start kernel all mine current directory contents)
    (grown : Grown region live' live₁ kernel found add) (filled : contents ≠ []) :
    ∃ live'' next, FreesItem current found next ∧
      Grown region live live'' start next (fun ptr => (all ptr ∨ add ptr) ∧ ¬ mine ptr) ∧
      (∀ ptr, mine ptr → found.objs ptr ≠ none) ∧
      ∀ ptr, ¬ mine ptr → next.objs ptr = found.objs ptr := by
  have together := holding.grown.trans grown
  rcases holding.item with ⟨root, none⟩ | ⟨notNull, pointer, inner, present, loaded, owns⟩
  · exact ⟨live₁, found, .inl ⟨root, rfl⟩,
      together.congr fun ptr => (and_iff_left (none ptr)).symm, fun ptr own => absurd own (none ptr),
      fun _ _ => rfl⟩
  have apart : ∀ allocation ∈ live, allocation.ptr ≠ current ∧ ¬ inner allocation.ptr :=
    fun allocation member =>
      ⟨fun same => holding.grown.fresh allocation member
          (holding.within _ ((owns _).mpr (.inl same))),
        fun own => holding.grown.fresh allocation member
          (holding.within _ ((owns _).mpr (.inr own)))⟩
  have buffered := loaded.buffered filled
  have ownsItem : mine current := (owns _).mpr (.inl rfl)
  have ownsPointer : mine pointer := (owns _).mpr (.inr ((buffered _).mpr (.inl rfl)))
  have ownsBuffer : mine directory.item := (owns _).mpr (.inr ((buffered _).mpr (.inr rfl)))
  have still : ∀ {ptr : Nat} {object : Obj}, mine ptr → kernel.objs ptr = some object →
      object.diskStream? = none → found.objs ptr = some object :=
    fun own present other =>
      (grown.keeps (holding.grown.held _ (holding.within _ own))).obj present other
  have present' := still ownsItem present rfl
  have there := still ownsPointer loaded.present rfl
  have buffer := still ownsBuffer loaded.buffer rfl
  obtain ⟨live'', next, run, grown', kept⟩ := fat16FatItemFree_directory together present'
    (loaded.congr (there.trans loaded.present.symm) (buffer.trans loaded.buffer.symm)
      fun none => absurd none filled) apart
  refine ⟨live'', next, .inr ⟨notNull, run⟩, grown'.congr fun ptr => by rw [owns], fun ptr own => ?_,
    fun ptr other => kept ptr (fun same => other (same ▸ ownsItem))
      (fun same => other (same ▸ ownsPointer)) fun same => other (same ▸ ownsBuffer)⟩
  rcases (owns ptr).mp own with rfl | there'
  · rw [present']
    nofun
  · rcases (buffered ptr).mp there' with rfl | rfl
    · rw [there]
      nofun
    · rw [buffer]
      nofun

/-- **One step of the walk.** -/
theorem Holding.step
    (holding : Holding region live live' start kernel all mine current directory contents)
    (searched : Searched region live' kernel directory contents name item found) :
    ∃ next live'' add owned raw, FreesItem current found next ∧
      Stepped region live live'' start kernel next directory contents name all mine add owned raw
        item := by
  have inv := holding.grown.invariant
  obtain ⟨live₁, add, raw, owned, grown, made, within, tight⟩ := searched.outcome inv
  have fresh : ∀ ptr, add ptr → ¬ all ptr := by
    intro ptr new old
    obtain ⟨allocation, member, same⟩ := holding.grown.held ptr old
    exact grown.fresh allocation member (same ▸ new)
  rcases holding.item with ⟨root, none⟩ | ⟨below, pointer, inner, present, loaded, owns⟩
  · exact ⟨found, live₁, add, owned, raw, .inl ⟨root, rfl⟩,
      (holding.grown.trans grown).congr fun ptr => (and_iff_left (none ptr)).symm, made, within,
      fresh, tight⟩
  by_cases empty : contents = []
  · -- nothing is found, and the buffer that is freed is no block
    have none : ∀ k, ¬ Matches directory contents name k := by
      intro k named
      obtain ⟨count, total, length⟩ := loaded.count
      have before := named.1
      rw [empty, List.length_nil] at length
      unfold sizeofFatDirectoryItem at length
      omega
    obtain ⟨rfl, rfl⟩ := searched.of_empty none
    obtain ⟨live'', next, run, grown, _⟩ := fat16FatItemFree_directory holding.grown present loaded
      fun allocation member =>
        ⟨fun same => holding.grown.fresh allocation member
            (holding.within _ ((owns _).mpr (.inl same))),
          fun own => holding.grown.fresh allocation member
            (holding.within _ ((owns _).mpr (.inr own)))⟩
    exact ⟨next, live'', fun _ => False, fun _ => False, [], .inr ⟨below, run⟩,
      grown.congr fun ptr => by rw [owns, or_false], .refused rfl fun _ => id, fun _ => id,
      fun _ => False.elim, .inl ⟨fun _ => id, .inl ⟨rfl, .inl none⟩⟩⟩
  obtain ⟨live'', next, freed, grown', there, kept⟩ := holding.frees grown empty
  refine ⟨next, live'', add, owned, raw, freed, grown',
    made.of_kept kept (fun ptr own => ?_) fun allocation member => ?_, within, fresh, tight⟩
  · exact ⟨grown.heldStill (holding.grown.held ptr (holding.within ptr own)),
      fun new => fresh ptr (within ptr new) (holding.within ptr own), there ptr own⟩
  · have together := holding.grown.trans grown
    rcases grown'.only allocation member with old | ⟨own, _⟩
    · exact ⟨allocation, together.grown old, rfl⟩
    · exact together.held _ own

/-- The item of a directory is what the walk goes on with. -/
theorem Stepped.holding {live'' : List Allocation} {add owned : Nat → Prop} {raw : List UInt8}
    {below : FatDirectory}
    (stepped : Stepped region live live'' start kernel next directory contents name all mine add
      owned raw item) (mineAll : ∀ ptr, mine ptr → all ptr)
    (reached : DirectoryOf next item below) :
    ∃ contents', Holding region live live'' start next
      (fun ptr => (all ptr ∨ add ptr) ∧ ¬ mine ptr) owned item below contents' := by
  have notNull := reached.notNull stepped.grown.invariant.null
  obtain ⟨pointer, present, there⟩ := reached
  have within : ∀ ptr, owned ptr → (all ptr ∨ add ptr) ∧ ¬ mine ptr := fun ptr own =>
    ⟨.inr (stepped.within ptr own),
      fun old => stepped.apart ptr (stepped.within ptr own) (mineAll ptr old)⟩
  cases stepped.made with
  | refused null _ => exact absurd null notNull
  | uncopied _ present' _ =>
      rw [present'] at present
      cases present
  | file _ _ present' _ _ =>
      rw [present'] at present
      cases present
  | dangling _ _ present' freed _ =>
      rw [present'] at present
      cases present
      rw [freed] at there
      cases there
  | directory pointer' value contents' inner subdirectory present' loaded owns =>
      rw [present'] at present
      cases present
      have same := loaded.present
      rw [there] at same
      cases same
      refine ⟨contents', stepped.grown, ⟨loaded.buffer, ?_⟩,
        .inr ⟨notNull, _, inner, present', loaded, owns⟩, within⟩
      by_cases empty : contents' = []
      · obtain ⟨count, total, length⟩ := loaded.count
        rw [empty, List.length_nil] at length
        unfold sizeofFatDirectoryItem at length
        exact .inl (by omega)
      · exact .inr (stepped.grown.held _ (within _ ((owns _).mpr
          (.inr ((loaded.buffered empty _).mpr (.inr rfl))))))

end Step

section Path

variable {region : KernelRegion} {live live' : List Allocation} {kernel next : Kernel}

/-- The parts of a path stay with their objects. -/
theorem PartList.of_keeps : ∀ {first : Nat} {names : List (List UInt8)} {ptrs : List Nat},
    PartList kernel first names ptrs → (∀ ptr ∈ ptrs, kernel.Keeps next ptr) →
    PartList next first names ptrs := by
  intro first names
  induction names generalizing first with
  | nil => exact fun parts _ => parts
  | cons name names ih =>
      rintro ptrs ⟨notNull, short, buffer, after, rest, rfl, part, contents, parts⟩ keeps
      exact ⟨notNull, short, buffer, after, rest, rfl,
        (keeps first List.mem_cons_self).obj part rfl,
        (keeps buffer (List.mem_cons_of_mem _ List.mem_cons_self)).obj contents rfl,
        ih parts fun ptr member =>
          keeps ptr (List.mem_cons_of_mem _ (List.mem_cons_of_mem _ member))⟩

theorem PathLive.grown {path : Nat} {names : List (List UInt8)} {ptrs : List Nat}
    {all : Nat → Prop} (pathLive : PathLive live kernel path names ptrs)
    (grown : Grown region live live' kernel next all) : PathLive live' next path names ptrs where
  parts := pathLive.parts.of_keeps fun ptr member => grown.keeps (pathLive.held ptr member)
  held := fun ptr member => grown.heldStill (pathLive.held ptr member)

/-- The first part of a path, and the path after it. -/
structure PathCons (live : List Allocation) (kernel : Kernel) (path : Nat)
    (names : List (List UInt8)) (name : List UInt8) (rest : List (List UInt8)) (buffer after : Nat)
    (ptrs : List Nat) : Prop where
  names : names = name :: rest
  part : kernel.objs path = some (.pathPart { part := buffer, next := after })
  partHeld : ∃ allocation ∈ live, allocation.ptr = path
  name : kernel.objs buffer = some (.bytes (partBuffer name))
  nameHeld : ∃ allocation ∈ live, allocation.ptr = buffer
  left : PathLive live kernel after rest ptrs

theorem PathLive.uncons {path : Nat} {names : List (List UInt8)} {ptrs : List Nat}
    (pathLive : PathLive live kernel path names ptrs) (notNull : path ≠ 0) :
    ∃ name rest buffer after ptrs', PathCons live kernel path names name rest buffer after ptrs' := by
  obtain ⟨parts, held⟩ := pathLive
  cases names with
  | nil => exact absurd parts.1 notNull
  | cons name names' =>
      obtain ⟨_, _, buffer, after, rest, rfl, part, contents, parts⟩ := parts
      exact ⟨name, names', buffer, after, rest, rfl, part, held _ List.mem_cons_self, contents,
        held _ (List.mem_cons_of_mem _ List.mem_cons_self), parts, fun ptr member =>
          held ptr (List.mem_cons_of_mem _ (List.mem_cons_of_mem _ member))⟩

/-- A path has as many parts from a pointer on in whatever way it is taken apart. -/
theorem PartList.length_eq : ∀ {first : Nat} {names others : List (List UInt8)}
    {ptrs ptrs' : List Nat}, PartList kernel first names ptrs → PartList kernel first others ptrs' →
    names.length = others.length := by
  intro first names
  induction names generalizing first with
  | nil =>
      rintro others ptrs ptrs' ⟨null, _⟩ parts'
      cases others with
      | nil => rfl
      | cons _ _ => exact absurd null parts'.1
  | cons name names ih =>
      rintro others ptrs ptrs' ⟨notNull, _, buffer, after, rest, _, part, _, parts⟩ parts'
      cases others with
      | nil => exact absurd parts'.1 notNull
      | cons other others =>
          obtain ⟨_, _, buffer', after', rest', _, part', _, parts'⟩ := parts'
          rw [part] at part'
          cases part'
          rw [List.length_cons, List.length_cons, ih parts parts']

/-- The pointers of the parts. -/
def partPointers (kernel : Kernel) : (first : Nat) → (count : Nat) → List Nat
  | _, 0 => []
  | first, count + 1 =>
      first :: partPointers kernel (((kernel.objs first).bind Obj.pathPart?).elim 0 PathPart.next)
        count

/-- Each pointer of the rest of a path starts a shorter path. -/
theorem PartList.of_mem_partPointers : ∀ {first : Nat} {names : List (List UInt8)}
    {ptrs : List Nat}, PartList kernel first names ptrs →
    ∀ ptr ∈ partPointers kernel first names.length, ptr ∈ ptrs ∧ ∃ others ptrs',
      PartList kernel ptr others ptrs' ∧ others.length ≤ names.length := by
  intro first names
  induction names generalizing first with
  | nil => exact fun _ _ member => nomatch member
  | cons name names ih =>
      rintro ptrs whole ptr member
      obtain ⟨_, _, buffer, after, rest, rfl, part, _, parts⟩ := id whole
      rw [List.length_cons, partPointers, part] at member
      rcases List.mem_cons.mp member with rfl | later
      · exact ⟨List.mem_cons_self, _, _, whole, le_rfl⟩
      · obtain ⟨inside, others, ptrs', parts', shorter⟩ := ih parts ptr later
        exact ⟨List.mem_cons_of_mem _ (List.mem_cons_of_mem _ inside), others, ptrs', parts',
          shorter.trans (Nat.le_succ _)⟩

/-- The parts of a path are different objects. -/
theorem PartList.nodup : ∀ {first : Nat} {names : List (List UInt8)} {ptrs : List Nat},
    PartList kernel first names ptrs → (partPointers kernel first names.length).Nodup := by
  intro first names
  induction names generalizing first with
  | nil => exact fun _ => List.nodup_nil
  | cons name names ih =>
      rintro ptrs whole
      obtain ⟨_, _, buffer, after, rest, _, part, _, parts⟩ := id whole
      rw [List.length_cons, partPointers, part]
      refine List.nodup_cons.mpr ⟨fun member => ?_, ih parts⟩
      obtain ⟨_, others, ptrs', parts', shorter⟩ := parts.of_mem_partPointers first member
      have same := whole.length_eq parts'
      rw [List.length_cons] at same
      omega

theorem length_partPointers (kernel : Kernel) : ∀ (first count : Nat),
    (partPointers kernel first count).length = count
  | _, 0 => rfl
  | first, count + 1 => by rw [partPointers, List.length_cons, length_partPointers]

/-- **A path is not longer than the heap.** -/
theorem PathLive.length_le {path : Nat} {names : List (List UInt8)} {ptrs : List Nat}
    (pathLive : PathLive live kernel path names ptrs) (inv : KernelInvariant region live kernel) :
    names.length ≤ kernel.heap.table.total := by
  have block : ∀ ptr ∈ partPointers kernel path names.length, ∃ index < kernel.heap.table.total,
      ptr = region.start + peachosHeapBlockSize * index := by
    intro ptr member
    obtain ⟨inside, _⟩ := pathLive.parts.of_mem_partPointers ptr member
    obtain ⟨allocation, live, rfl⟩ := pathLive.held ptr inside
    have nonempty := inv.heap.extent_nonempty live
    have within := inv.heap.extent_inside live
    exact ⟨(region.extent allocation).start, by omega, inv.heap.placed allocation live⟩
  have few : (partPointers kernel path names.length).toFinset.card ≤
      ((Finset.range kernel.heap.table.total).image
        fun index => region.start + peachosHeapBlockSize * index).card := by
    refine Finset.card_le_card fun ptr member => ?_
    obtain ⟨index, inside, same⟩ := block ptr (List.mem_toFinset.mp member)
    exact Finset.mem_image.mpr ⟨index, Finset.mem_range.mpr inside, same.symm⟩
  rw [List.toFinset_card_of_nodup pathLive.parts.nodup, length_partPointers] at few
  exact few.trans (Finset.card_image_le.trans (Finset.card_range _).le)

/-- A heap with room has a path of the given names. -/
theorem exists_pathLive (inv : KernelInvariant region live kernel) {lower upper : Nat}
    (room : kernel.heap.Room lower upper) : ∀ {names : List (List UInt8)},
    (∀ name ∈ names, name.length < peachosMaxPath) → lower + 2 * names.length ≤ upper →
    ∃ live' next all path ptrs, Grown region live live' kernel next all ∧
      PathLive live' next path names ptrs ∧
        next.heap.Room (lower + 2 * names.length) upper := by
  intro names
  induction names with
  | nil => exact fun _ _ => ⟨live, kernel, _, 0, [], .refl inv, ⟨⟨rfl, rfl⟩, nofun⟩, room⟩
  | cons name names ih =>
      intro short enough
      rw [List.length_cons] at enough ⊢
      obtain ⟨live', middle, all, after, ptrs, grown, pathLive, room⟩ :=
        ih (fun other member => short other (List.mem_cons_of_mem _ member)) (by omega)
      have oneBlock : blocksFor peachosMaxPath = 1 ∧ blocksFor sizeofPath = 1 := by decide
      obtain ⟨buffer, named, _, placedName, room⟩ := kmalloc_room grown.invariant room
        (show 1 ≤ peachosMaxPath by decide) (by decide) (by rw [oneBlock.1]; omega)
        (.bytes (partBuffer name))
      obtain ⟨first, next, _, placed, room⟩ := kmalloc_room placedName.invariant room
        (show 1 ≤ sizeofPath by decide) (by decide) (by rw [oneBlock.1, oneBlock.2]; omega)
        (.pathPart { part := buffer, next := after })
      have toBuffer := ((Grown.refl grown.invariant).placed placedName)
      have toFirst := toBuffer.placed placed
      have rest := pathLive.grown toFirst
      refine ⟨_, next, _, first, first :: buffer :: ptrs, grown.trans toFirst, ⟨⟨placed.notNull,
        short name List.mem_cons_self, buffer, after, ptrs, rfl, placed.present,
        (placed.kept _ List.mem_cons_self).trans placedName.present, rest.parts⟩, ?_⟩, ?_⟩
      · intro ptr member
        rcases List.mem_cons.mp member with rfl | member
        · exact ⟨_, List.mem_cons_self, rfl⟩
        rcases List.mem_cons.mp member with rfl | member
        · exact ⟨_, List.mem_cons_of_mem _ List.mem_cons_self, rfl⟩
        · exact rest.held ptr member
      · rw [oneBlock.1, oneBlock.2] at room
        rwa [show lower + 2 * (names.length + 1) = lower + 2 * names.length + 1 + 1 by omega]

end Path

/-- The walk from a directory on. -/
def walkRest (read : StreamRead) (fuel current : Nat) (directory : FatDirectory) (nextPart : Nat) :
    K Nat := do
  let part ← load Obj.pathPart? nextPart
  let name ← load Obj.bytes? part.part
  let tmpItem ← fat16FindItemInDirectory read directory name
  fat16FatItemFree current
  fat16GetDirectoryEntryLoop read fuel tmpItem part.next

section Walk

variable {region : KernelRegion} {live live' : List Allocation} {start kernel found next : Kernel}
  {volume : FatPrivate} {read : StreamRead} {directory below : FatDirectory}
  {contents name : List UInt8} {names : List (List UInt8)} {ptrs : List Nat}
  {path current part item : Nat} {all mine : Nat → Prop}

/-- The loop goes on from the item of a directory. -/
theorem fat16GetDirectoryEntryLoop_down (reached : DirectoryOf kernel item below)
    (more : part ≠ 0) (fuel : Nat) :
    (fat16GetDirectoryEntryLoop read (fuel + 1) item part).run kernel =
      (walkRest read fuel item below part).run kernel := by
  obtain ⟨pointer, present, there⟩ := reached
  have loaded : (load Obj.fatItem? item).run kernel = .ok (_, kernel) := load_of_obj present rfl
  have loaded' : (load Obj.fatDirectory? pointer).run kernel = .ok (below, kernel) :=
    load_of_obj there rfl
  rw [fat16GetDirectoryEntryLoop, if_neg more, Exec.bind_of_ok loaded, if_neg (not_not.mpr rfl),
    Exec.bind_of_ok loaded']
  rfl

/-- The rest of the walk after the lookup, which frees the item that it comes from. -/
theorem walkRest_searched {value : PathPart} (here : kernel.objs part = some (.pathPart value))
    (named : kernel.objs value.part = some (.bytes name))
    (search : (fat16FindItemInDirectory read directory name).run kernel = .ok (item, found))
    (notNull : current ≠ 0) (freed : FreesItem current found next) (fuel : Nat) :
    (walkRest read fuel current directory part).run kernel =
      (fat16GetDirectoryEntryLoop read fuel item value.next).run next := by
  have loaded : (load Obj.pathPart? part).run kernel = .ok (value, kernel) := load_of_obj here rfl
  have loaded' : (load Obj.bytes? value.part).run kernel = .ok (name, kernel) :=
    load_of_obj named rfl
  have free := (freed.resolve_left fun root => notNull root.1).2
  rw [walkRest, Exec.bind_of_ok loaded, Exec.bind_of_ok loaded', Exec.bind_of_ok search,
    Exec.bind_of_ok free]

/-- The walk after the lookup in the root directory. -/
theorem fat16GetDirectoryEntry_searched
    (mounted : start.objs start.disk.fsPrivate = some (.fatPrivate volume)) {value : PathPart}
    (here : start.objs path = some (.pathPart value))
    (named : start.objs value.part = some (.bytes name))
    (search : (fat16FindItemInDirectory read volume.rootDirectory name).run start =
      .ok (item, found)) :
    (fat16GetDirectoryEntry read path).run start = if item = 0 then .ok (0, found) else
      (fat16GetDirectoryEntryLoop read (found.heap.table.total + 1) item value.next).run found := by
  have loaded : loadPrivate.run start = .ok (volume, start) := by
    rw [loadPrivate, Exec.bind_of_ok (Exec.run_read _ _)]
    exact load_of_obj mounted rfl
  have loaded₁ : (load Obj.pathPart? path).run start = .ok (value, start) := load_of_obj here rfl
  have loaded₂ : (load Obj.bytes? value.part).run start = .ok (name, start) :=
    load_of_obj named rfl
  rw [fat16GetDirectoryEntry, Exec.bind_of_ok loaded, Exec.bind_of_ok loaded₁,
    Exec.bind_of_ok loaded₂, Exec.bind_of_ok search]
  by_cases null : item = 0
  · rw [if_pos null, if_pos null, Exec.run_pure]
  · rw [if_neg null, if_neg null, Exec.bind_of_ok (Exec.run_read _ _)]

/-- A walk that completes has completed its lookup. -/
theorem fat16GetDirectoryEntry_completed
    (mounted : start.objs start.disk.fsPrivate = some (.fatPrivate volume)) {value : PathPart}
    (here : start.objs path = some (.pathPart value))
    (named : start.objs value.part = some (.bytes name)) {result : Nat × Kernel}
    (run : (fat16GetDirectoryEntry read path).run start = .ok result) : ∃ item found,
      (fat16FindItemInDirectory read volume.rootDirectory name).run start = .ok (item, found) := by
  have loaded : loadPrivate.run start = .ok (volume, start) := by
    rw [loadPrivate, Exec.bind_of_ok (Exec.run_read _ _)]
    exact load_of_obj mounted rfl
  have loaded₁ : (load Obj.pathPart? path).run start = .ok (value, start) := load_of_obj here rfl
  have loaded₂ : (load Obj.bytes? value.part).run start = .ok (name, start) :=
    load_of_obj named rfl
  rw [fat16GetDirectoryEntry, Exec.bind_of_ok loaded, Exec.bind_of_ok loaded₁,
    Exec.bind_of_ok loaded₂] at run
  obtain ⟨item, found, search, _⟩ := Exec.bind_eq_ok.mp run
  exact ⟨item, found, search⟩

theorem walkRest_completed {value : PathPart} (here : kernel.objs part = some (.pathPart value))
    (named : kernel.objs value.part = some (.bytes name)) {fuel : Nat} {result : Nat × Kernel}
    (run : (walkRest read fuel current directory part).run kernel = .ok result) :
    ∃ item found, (fat16FindItemInDirectory read directory name).run kernel =
      .ok (item, found) := by
  have loaded : (load Obj.pathPart? part).run kernel = .ok (value, kernel) := load_of_obj here rfl
  have loaded' : (load Obj.bytes? value.part).run kernel = .ok (name, kernel) :=
    load_of_obj named rfl
  rw [walkRest, Exec.bind_of_ok loaded, Exec.bind_of_ok loaded'] at run
  obtain ⟨item, found, search, _⟩ := Exec.bind_eq_ok.mp run
  exact ⟨item, found, search⟩

/-- The item that is freed leaves one state. -/
theorem FreesItem.unique {other : Kernel} (freed : FreesItem current found next)
    (freed' : FreesItem current found other) : next = other := by
  rcases freed with ⟨root, same⟩ | ⟨notNull, run⟩ <;>
    rcases freed' with ⟨root', same'⟩ | ⟨notNull', run'⟩
  · exact same.trans same'.symm
  · exact absurd root notNull'
  · exact absurd root' notNull
  · rw [run] at run'
    exact (Prod.mk.inj (Except.ok.inj run')).2

/-- The walk stands at a directory: what it holds, what is left of the path, and what it still
runs. -/
structure WalkPoint (read : StreamRead) (region : KernelRegion) (live live' : List Allocation)
    (volume : FatPrivate) (start : Kernel) (path : Nat) (kernel : Kernel) (current : Nat)
    (directory : FatDirectory) (part : Nat) (all mine : Nat → Prop) (contents : List UInt8)
    (names : List (List UInt8)) (ptrs : List Nat) : Prop where
  holding : Holding region live live' start kernel all mine current directory contents
  left : PathLive live start part names ptrs
  runs : current = 0 ∧ kernel = start ∧ directory = volume.rootDirectory ∧ part = path ∨
    current ≠ 0 ∧ ∃ fuel, names.length ≤ fuel ∧ (fat16GetDirectoryEntry read path).run start =
      (walkRest read fuel current directory part).run kernel

/-- The walk starts at the root directory, with nothing allocated. -/
theorem RootLive.holding (root : RootLive live volume start)
    (inv : KernelInvariant region live start) :
    ∃ contents, Holding region live live start start (fun _ => False) (fun _ => False) 0
      volume.rootDirectory contents := by
  obtain ⟨contents, buffer⟩ := root.buffer
  exact ⟨contents, .refl inv, ⟨buffer, .inr root.held⟩, .inl ⟨rfl, fun _ => id⟩,
    fun _ => False.elim⟩

/-- **Where the walk comes to.** -/
theorem Walked.point (reads : ReadsStreams read) (inv : KernelInvariant region live start)
    (root : RootLive live volume start) (pathLive : PathLive live start path names ptrs)
    (walked : Walked read start path kernel current directory part) :
    ∃ live' all mine contents names' ptrs', WalkPoint read region live live' volume start path kernel
      current directory part all mine contents names' ptrs' := by
  induction walked with
  | root mounted =>
      obtain ⟨contents, holding⟩ := root.holding inv
      have same := root.volumeLive.fsPrivate
      rw [mounted] at same
      cases same
      exact ⟨live, _, fun _ => False, contents, names, ptrs, holding, pathLive,
        .inl ⟨rfl, rfl, rfl, rfl⟩⟩
  | @down kernel found next current part item directory below value name above here named search
      freed reached more ih =>
      obtain ⟨live', all, mine, contents, names', ptrs', point⟩ := ih
      have grown := point.holding.grown
      have partNotNull : part ≠ 0 := by
        rintro rfl
        rw [grown.invariant.null] at here
        cases here
      have searched := fat16FindItemInDirectory_searched reads grown.invariant
        (root.volumeLive.grown grown) point.holding.target search
      obtain ⟨next', live'', add, owned, raw, freed', stepped⟩ := point.holding.step searched
      obtain rfl := freed.unique freed'
      obtain ⟨contents', holding⟩ := stepped.holding point.holding.within reached
      obtain ⟨first, rest, buffer, after, ptrs'', cons⟩ := point.left.uncons partNotNull
      have present := (grown.keeps cons.partHeld).obj cons.part rfl
      rw [here] at present
      cases present
      have itemNotNull := reached.notNull holding.grown.invariant.null
      refine ⟨live'', _, owned, contents', rest, ptrs'', holding, cons.left,
        .inr ⟨itemNotNull, ?_⟩⟩
      rcases point.runs with ⟨rfl, rfl, rfl, rfl⟩ | ⟨notNull, fuel, enough, runs⟩
      · obtain ⟨_, rfl⟩ := freed.resolve_right fun below => below.1 rfl
        have total := inv.heap.sameTotal holding.grown.invariant.heap
        have short := point.left.length_le inv
        rw [cons.names, List.length_cons] at short
        refine ⟨next.heap.table.total, by omega, ?_⟩
        rw [fat16GetDirectoryEntry_searched root.volumeLive.fsPrivate here named search,
          if_neg itemNotNull, fat16GetDirectoryEntryLoop_down reached more]
      · rw [cons.names, List.length_cons] at enough
        obtain ⟨less, rfl⟩ : ∃ less, fuel = less + 1 := ⟨fuel - 1, by omega⟩
        refine ⟨less, by omega, ?_⟩
        rw [runs, walkRest_searched here named search notNull freed,
          fat16GetDirectoryEntryLoop_down reached more]

end Walk

end Peachos
