import Peachos.Fs.OpenOutcome

/-! # What closing frees

`fat16_close` reads what it is going to free before it frees any of it, so the blocks are those of
`closeBlocks` (`fat16Close_eq`). `kfree` does not ask whose they are: a block of an item that was
made is its own or no live block at all (`closeBlocks_apart`).
-/

namespace Peachos

open CInt

/-- The blocks that `fat16_free_directory` frees. -/
def directoryBlocks (kernel : Kernel) (directory : Nat) : List Nat :=
  match (kernel.objs directory).bind Obj.fatDirectory? with
  | none => []
  | some value => if value.item ≠ 0 then [value.item, directory] else [directory]

/-- The blocks that `fat16_fat_item_free` frees for what the item leads to. -/
def contentBlocks (kernel : Kernel) (item : FatItem) : List Nat :=
  if item.type = fatItemTypeDirectory then directoryBlocks kernel item.pointer
  else if item.type = fatItemTypeFile then [item.pointer]
  else []

/-- The blocks that `fat16_close` frees. -/
def closeBlocks (kernel : Kernel) (descriptor : Nat) : List Nat :=
  match (kernel.objs descriptor).bind Obj.fatFileDescriptor? with
  | none => []
  | some opened =>
      match (kernel.objs opened.item).bind Obj.fatItem? with
      | none => []
      | some item => contentBlocks kernel item ++ [opened.item, descriptor]

section Frees

variable {region : KernelRegion} {live live' : List Allocation} {kernel next final : Kernel}

/-- What a completed free of several blocks has freed, each of them once. -/
theorem kfreeAll_completed : ∀ {blocks : List Nat} {live' : List Allocation} {next : Kernel}
    {freed : Nat → Prop}, Released region live live' kernel next freed →
    (kfreeAll blocks).run next = .ok ((), final) → blocks.Nodup ∧ (∀ ptr ∈ blocks, ¬ freed ptr) ∧
      ∃ live'', Released region live live'' kernel final fun ptr => ptr ∈ blocks ∨ freed ptr := by
  intro blocks
  induction blocks with
  | nil =>
      intro live' next freed released run
      cases run
      exact ⟨List.nodup_nil, nofun, live', released.congr fun ptr => by
        simp only [List.not_mem_nil, false_or]⟩
  | cons block blocks ih =>
      intro live' next freed released run
      obtain ⟨_, middle, free, rest⟩ := Exec.bind_eq_ok.mp run
      have present := kfree_eq_ok free
      obtain ⟨live₁, _, free', released'⟩ := released.free present
      rw [free] at free'
      cases free'
      obtain ⟨different, other, live'', released''⟩ := ih released' rest
      refine ⟨List.nodup_cons.mpr ⟨fun member => other block member (.inl rfl), different⟩,
        List.forall_mem_cons.mpr ⟨fun here => ?_, fun ptr member here => other ptr member (.inr here)⟩,
        live'', released''.congr fun ptr => ?_⟩
      · rw [released.gone block here] at present
        cases present
      · rw [List.mem_cons, or_assoc, or_left_comm]

/-- Other blocks are given back than those of the start. -/
theorem Grown.released {start : Kernel} {own freed : Nat → Prop} {live'' : List Allocation}
    (grown : Grown region live live' start next own)
    (released : Released region live' live'' next final freed)
    (apart : ∀ allocation ∈ live, ¬ freed allocation.ptr) :
    Grown region live live'' start final fun ptr => own ptr ∧ ¬ freed ptr where
  invariant := released.invariant
  grown := fun allocation member =>
    (released.remaining allocation).mpr ⟨grown.grown member, apart allocation member⟩
  fresh := fun allocation member here => grown.fresh allocation member here.1
  held := by
    rintro ptr ⟨own, unfreed⟩
    obtain ⟨allocation, member, rfl⟩ := grown.held ptr own
    exact ⟨allocation, (released.remaining allocation).mpr ⟨member, unfreed⟩, rfl⟩
  only := by
    intro allocation member
    obtain ⟨old, unfreed⟩ := (released.remaining allocation).mp member
    exact (grown.only allocation old).imp_right fun own => ⟨own, unfreed⟩
  kept := by
    intro allocation member
    unfold Kernel.Keeps
    rw [released.kept _ (apart allocation member)]
    exact grown.kept allocation member
  globals := grown.globals.trans released.globals

/-- `fat16_free_directory` that completes. -/
theorem fat16FreeDirectory_eq {directory : Nat}
    (run : (fat16FreeDirectory directory).run kernel = .ok ((), final))
    (null : kernel.objs 0 = none) :
    (kfreeAll (directoryBlocks kernel directory)).run kernel = .ok ((), final) := by
  rw [fat16FreeDirectory] at run
  by_cases isNull : directory = 0
  · rw [if_pos isNull] at run
    rw [directoryBlocks, isNull, null]
    exact run
  rw [if_neg isNull] at run
  obtain ⟨object, value, present, typed, run⟩ := load_bind_eq_ok.mp run
  cases object <;> cases typed
  rw [directoryBlocks, present, Option.bind_some, Obj.fatDirectory?]
  dsimp only
  by_cases buffered : value.item ≠ 0
  · rw [if_pos buffered] at run ⊢
    obtain ⟨_, middle, free, rest⟩ := Exec.bind_eq_ok.mp run
    rw [kfreeAll, Exec.bind_of_ok free, kfreeAll_singleton, rest]
  · rw [if_neg buffered] at run ⊢
    rw [kfreeAll_singleton, run]

/-- `fat16_fat_item_free` that completes. -/
theorem fat16FatItemFree_eq {item : Nat} {value : FatItem}
    (run : (fat16FatItemFree item).run kernel = .ok ((), final))
    (present : kernel.objs item = some (.fatItem value)) (null : kernel.objs 0 = none) :
    (kfreeAll (contentBlocks kernel value ++ [item])).run kernel = .ok ((), final) := by
  have loaded : (load Obj.fatItem? item).run kernel = .ok (value, kernel) :=
    load_of_obj present rfl
  rw [fat16FatItemFree, Exec.bind_of_ok loaded] at run
  rw [kfreeAll_append, contentBlocks]
  by_cases directory : value.type = fatItemTypeDirectory
  · rw [if_pos directory] at run ⊢
    obtain ⟨_, middle, free, rest⟩ := Exec.bind_eq_ok.mp run
    rw [Exec.bind_of_ok (fat16FreeDirectory_eq free null), kfreeAll_singleton, rest]
  rw [if_neg directory] at run ⊢
  by_cases regular : value.type = fatItemTypeFile
  · rw [if_pos regular] at run ⊢
    obtain ⟨_, middle, free, rest⟩ := Exec.bind_eq_ok.mp run
    rw [Exec.bind_of_ok ((kfreeAll_singleton _ _).trans free), kfreeAll_singleton, rest]
  · rw [if_neg regular] at run ⊢
    rw [kfreeAll, Exec.bind_of_ok (Exec.run_pure _ _), kfreeAll_singleton, run]

/-- **`fat16_close` that completes.** -/
theorem fat16Close_eq {descriptor : Nat} {res : Int}
    (run : (fat16Close descriptor).run kernel = .ok (res, final)) (null : kernel.objs 0 = none) :
    res = 0 ∧ (kfreeAll (closeBlocks kernel descriptor)).run kernel = .ok ((), final) := by
  obtain ⟨_, last, freed, done⟩ := Exec.bind_eq_ok.mp run
  cases done
  refine ⟨rfl, ?_⟩
  obtain ⟨object, opened, present, typed, freed⟩ := load_bind_eq_ok.mp freed
  cases object <;> cases typed
  obtain ⟨_, middle, free, rest⟩ := Exec.bind_eq_ok.mp freed
  obtain ⟨object, item, here, typed, _⟩ := load_bind_eq_ok.mp free
  cases object <;> cases typed
  have items : contentBlocks kernel item ++ [opened.item, descriptor] =
      (contentBlocks kernel item ++ [opened.item]) ++ [descriptor] :=
    (List.append_assoc _ [opened.item] [descriptor]).symm
  rw [closeBlocks, present, Option.bind_some, Obj.fatFileDescriptor?]
  dsimp only
  rw [here, Option.bind_some, Obj.fatItem?]
  dsimp only
  rw [items, kfreeAll_append, Exec.bind_of_ok (fat16FatItemFree_eq free here null),
    kfreeAll_singleton, rest]

/-- The blocks of an opened item are its own, or no live blocks. -/
theorem closeBlocks_apart {descriptor item : Nat} {raw : List UInt8} {owned : Nat → Prop}
    (opened : DescriptorOpened live kernel descriptor item raw owned)
    (inv : KernelInvariant region live kernel) : ∀ ptr ∈ closeBlocks kernel descriptor,
      ptr = descriptor ∨ owned ptr ∨ ∀ allocation ∈ live, allocation.ptr ≠ ptr := by
  have unheld : ∀ ptr, kernel.objs ptr = none → ∀ allocation ∈ live, allocation.ptr ≠ ptr := by
    rintro _ gone allocation member rfl
    have held := inv.held allocation member
    rw [gone] at held
    cases held
  have inside : ∀ value : FatItem, kernel.objs item = some (.fatItem value) →
      (∀ ptr ∈ contentBlocks kernel value, owned ptr ∨ ∀ allocation ∈ live, allocation.ptr ≠ ptr) →
      ∀ ptr ∈ closeBlocks kernel descriptor,
        ptr = descriptor ∨ owned ptr ∨ ∀ allocation ∈ live, allocation.ptr ≠ ptr := by
    intro value present content ptr member
    rw [closeBlocks, opened.opens, Option.bind_some, Obj.fatFileDescriptor?] at member
    dsimp only at member
    rw [present, Option.bind_some, Obj.fatItem?] at member
    dsimp only at member
    rw [List.mem_append, List.mem_cons, List.mem_singleton] at member
    rcases member with inner | rfl | same
    · exact .inr (content ptr inner)
    · exact .inr (.inl (opened.made.owns_item opened.notNull))
    · exact .inl same
  cases opened.made with
  | refused isNull _ => exact absurd isNull opened.notNull
  | uncopied _ present _ =>
      refine inside _ present fun ptr member => .inr (unheld ptr ?_)
      rw [List.mem_singleton.mp member, inv.null]
  | file pointer _ present copy owns =>
      refine inside _ present fun ptr member => .inl ((owns ptr).mpr (.inr ?_))
      exact List.mem_singleton.mp member
  | dangling pointer _ present freed _ =>
      refine inside _ present fun ptr member => ?_
      rw [contentBlocks, if_pos rfl, directoryBlocks, freed] at member
      cases member
  | directory pointer value contents inner _ present loaded owns =>
      refine inside _ present fun ptr member => ?_
      rw [contentBlocks, if_pos rfl, directoryBlocks, loaded.present, Option.bind_some,
        Obj.fatDirectory?] at member
      dsimp only at member
      have either : ptr = value.item ∨ ptr = pointer := by
        split at member
        · rw [List.mem_cons, List.mem_singleton] at member
          exact member
        · exact .inr (List.mem_singleton.mp member)
      rcases either with rfl | rfl
      · by_cases empty : contents = []
        · exact .inr (loaded.unbuffered empty).2
        · exact .inl ((owns _).mpr (.inr ((loaded.buffered empty _).mpr (.inr rfl))))
      · exact .inl ((owns _).mpr (.inr loaded.owns))

end Frees

section CleanUp

variable {region : KernelRegion} {live live₁ live₂ : List Allocation}
  {kernel parsed made next final : Kernel} {root drive first descriptor item : Nat}
  {names : List (List UInt8)} {ptrs : List Nat} {raw : List UInt8} {own all owned : Nat → Prop}

/-- What a completed `fat16_close` of new blocks gives back. -/
theorem fat16Close_grown {live' : List Allocation} {res : Int}
    (grown : Grown region live live' kernel next own)
    (opened : DescriptorOpened live' next descriptor item raw owned)
    (new : ∀ ptr, ptr = descriptor ∨ owned ptr → own ptr)
    (run : (fat16Close descriptor).run next = .ok (res, final)) :
    ∃ live'', Grown region live live'' kernel final
      fun ptr => own ptr ∧ ptr ∉ closeBlocks next descriptor := by
  obtain ⟨_, freed⟩ := fat16Close_eq run grown.invariant.null
  obtain ⟨_, _, live'', released⟩ := kfreeAll_completed (.refl grown.invariant) freed
  refine ⟨live'', (grown.released released fun allocation member => ?_).congr fun ptr => by
    rw [or_false]⟩
  rintro (blocks | none)
  · rcases closeBlocks_apart opened grown.invariant _ blocks with same | mine | unheld
    · exact grown.fresh allocation member (new _ (.inl same))
    · exact grown.fresh allocation member (new _ (.inr mine))
    · exact unheld allocation (grown.grown member) rfl
  · exact none

/-- The path is freed, and what was opened for it stays. -/
theorem PathParsed.free (path : PathParsed region live live₁ kernel parsed root drive first names ptrs)
    (grown : Grown region live₁ live₂ parsed made all) :
    ∃ live' freed, (pathparserFree root).run made = .ok ((), freed) ∧
      Grown region live live' kernel freed
        (fun ptr => ((ptr = root ∨ ptr ∈ ptrs) ∨ all ptr) ∧ ¬ (ptr = root ∨ ptr ∈ ptrs)) ∧
      (∀ ptr, ¬ (ptr = root ∨ ptr ∈ ptrs) → freed.objs ptr = made.objs ptr) :=
  pathparserFree_grown path.extended path.path path.few path.different (fun _ => Iff.rfl) grown

/-- What is opened for a path is no block of it. -/
theorem PathOpened.notPath
    (opened : PathOpened region live₁ live₂ parsed made descriptor item raw all owned)
    (path : PathParsed region live live₁ kernel parsed root drive first names ptrs) :
    ∀ ptr, all ptr → ¬ (ptr = root ∨ ptr ∈ ptrs) := by
  rintro ptr mine here
  obtain ⟨allocation, member, rfl⟩ := path.extended.held ptr here
  exact opened.grown.fresh allocation member mine

/-- It stays when the path is freed. -/
theorem PathOpened.stays
    (opened : PathOpened region live₁ live₂ parsed made descriptor item raw all owned)
    (path : PathParsed region live live₁ kernel parsed root drive first names ptrs) (ptr : Nat)
    (mine : ptr = descriptor ∨ owned ptr) :
    ((ptr = root ∨ ptr ∈ ptrs) ∨ all ptr) ∧ ¬ (ptr = root ∨ ptr ∈ ptrs) := by
  have here := mine.elim (fun same => same ▸ opened.own) (opened.within ptr)
  exact ⟨.inr here, opened.notPath path ptr here⟩

theorem DescriptorOpened.descriptorNotNull {live' : List Allocation}
    (opened : DescriptorOpened live' made descriptor item raw owned) (null : made.objs 0 = none) :
    descriptor ≠ 0 := by
  rintro rfl
  have opens := opened.opens
  rw [null] at opens
  cases opens

theorem PathOpened.freed
    (opened : PathOpened region live₁ live₂ parsed made descriptor item raw all owned)
    (path : PathParsed region live live₁ kernel parsed root drive first names ptrs)
    {live' : List Allocation} {freed : Kernel}
    (grown : Grown region live live' kernel freed
      fun ptr => ((ptr = root ∨ ptr ∈ ptrs) ∨ all ptr) ∧ ¬ (ptr = root ∨ ptr ∈ ptrs))
    (kept : ∀ ptr, ¬ (ptr = root ∨ ptr ∈ ptrs) → freed.objs ptr = made.objs ptr) :
    DescriptorOpened live' freed descriptor item raw owned := by
  have new := opened.notPath path
  refine ⟨(kept _ (new _ opened.own)).trans opened.opened.opens, opened.opened.notNull,
    opened.opened.made.of_kept kept (fun ptr here => ?_) fun allocation member => ?_,
    opened.opened.apart⟩
  · obtain ⟨allocation, member, rfl⟩ := path.extended.held ptr here
    have still := opened.grown.grown member
    refine ⟨⟨allocation, still, rfl⟩, fun mine => new _ (opened.within _ mine) here, ?_⟩
    exact Option.isSome_iff_ne_none.mp (opened.grown.invariant.held allocation still)
  · rcases grown.only allocation member with old | ⟨before | mine, _⟩
    · exact ⟨allocation, opened.grown.grown (path.extended.grown old), rfl⟩
    · exact opened.grown.heldStill (path.extended.held _ before)
    · exact opened.grown.held _ mine

/-- After a path and a filesystem that has opened or failed, the end of `fopen` closes what it has. -/
theorem fopenCleanUp_closes {outcome : OpenOutcome} (parses : outcome.rootPath ≠ 0)
    (onDisk : outcome.disk = .disk) (asked : outcome.descriptorPrivateData ≠ 0)
    (noSlot : outcome.desc = 0) {freed : Kernel}
    (free : (pathparserFree outcome.rootPath).run made = .ok ((), freed)) {res : Int}
    (run : (fopenCleanUp outcome).run made = .ok (res, final)) :
    ∃ closed, (fat16Close outcome.descriptorPrivateData).run freed = .ok (closed, final) := by
  rw [fopenCleanUp] at run
  dsimp only at run
  rw [if_pos parses, Exec.bind_of_ok free, if_pos ⟨by rw [onDisk]; decide, asked⟩] at run
  obtain ⟨closed, _, close, rest⟩ := Exec.bind_eq_ok.mp run
  rw [if_neg (not_not.mpr noSlot)] at rest
  cases rest
  exact ⟨closed, close⟩

/-- **The end of `fopen` after an error.** When it completes, the blocks of the start are left. -/
theorem fopenCleanUp_grown {outcome : OpenOutcome} (inv : KernelInvariant region live kernel)
    {read : StreamRead}
    {filename modeStr : List UInt8}
    (reaches : Reaches read region live kernel filename modeStr outcome next) (failed : outcome.res < 0) {res : Int}
    (run : (fopenCleanUp outcome).run next = .ok (res, final)) :
    ∃ live' own, Grown region live live' kernel final own := by
  cases reaches with
  | refused _ noPath notOpened noSlot =>
      rw [fopenCleanUp] at run
      dsimp only at run
      rw [if_neg (not_not.mpr noPath), if_neg (fun both => both.2 notOpened),
        if_neg (not_not.mpr noSlot)] at run
      cases run
      exact ⟨live, _, .refl inv⟩
  | parsed _ notNull path notOpened noSlot =>
      obtain ⟨live', freed, free, grown, _⟩ := path.free (.refl path.extended.invariant)
      rw [fopenCleanUp] at run
      dsimp only at run
      rw [if_pos notNull, Exec.bind_of_ok free, if_neg (fun both => both.2 notOpened),
        if_neg (not_not.mpr noSlot)] at run
      cases run
      exact ⟨live', _, grown⟩
  | @error parsed made _ _ root first value _ _ _ asks _ path grown error unaligned =>
      obtain ⟨live', freed, free, grown', _⟩ := path.free grown
      have other : value ≠ 0 := fun null => unaligned (by rw [null, Nat.zero_mod])
      obtain ⟨_, close⟩ := fopenCleanUp_closes asks.notNull rfl other rfl free run
      obtain ⟨_, _, closed, _⟩ := Exec.bind_eq_ok.mp close
      obtain ⟨_, _, present, _⟩ := load_bind_eq_ok.mp closed
      exact absurd (grown'.invariant.obj_placed (by rw [present]; rfl)).1 unaligned
  | full asks _ path opened _ =>
      obtain ⟨live', freed, free, grown, kept⟩ := path.free opened.grown
      have still := opened.freed path grown kept
      obtain ⟨_, close⟩ := fopenCleanUp_closes asks.notNull rfl
        (still.descriptorNotNull grown.invariant.null) rfl free run
      obtain ⟨live'', grown'⟩ := fat16Close_grown grown still (opened.stays path) close
      exact ⟨live'', _, grown'⟩
  | opened _ _ _ _ => exact absurd failed (not_lt.mpr (Int.natCast_nonneg _))

/-- **A completed `fopen`.** It returns 0 and leaves the table and what was live alone, or it has
opened a file. -/
theorem fopen_completed {volume : FatPrivate} {read : StreamRead} {filename modeStr : List UInt8}
    (reads : ReadsStreams read) (inv : KernelInvariant region live kernel)
    (mounted : RootLive live volume kernel) (filesystem : kernel.disk.filesystem = some .fat16)
    (size : kernel.fileDescriptors.length = peachosMaxFileDescriptors) {res : Int}
    (run : (fopen read filename modeStr).run kernel = .ok (res, final)) :
    (res = 0 ∧ ∃ live' own, Grown region live live' kernel final own) ∨
      0 < res ∧ ∃ outcome, outcome.res = res ∧ Reaches read region live kernel filename modeStr outcome final := by
  obtain ⟨outcome, next, before, rest⟩ := Exec.bind_eq_ok.mp run
  have reaches := fopenOutcome_reaches reads inv mounted filesystem size before
  by_cases failed : outcome.res < 0
  · rw [if_pos failed] at rest
    exact .inl ⟨fopenCleanUp_completed rest, fopenCleanUp_grown inv reaches failed rest⟩
  · rw [if_neg failed] at rest
    cases rest
    refine .inr ⟨?_, outcome, rfl, reaches⟩
    cases reaches with
    | refused failed' _ _ _ => exact absurd failed' failed
    | parsed failed' _ _ _ _ => exact absurd failed' failed
    | error _ _ _ _ error _ => exact absurd (of_decide_eq_true error) failed
    | full _ _ _ _ _ => exact absurd (show -enomem < 0 by decide) failed
    | opened _ _ _ _ => exact Int.natCast_pos.mpr (Nat.succ_pos _)

end CleanUp

/-- `fclose` has found a descriptor in the table and has freed it with the blocks behind it. -/
structure FileClosed (region : KernelRegion) (live live' : List Allocation)
    (kernel last next : Kernel) (fd : Int) (desc : Nat) (value : FileDescriptor) : Prop where
  lookup : (fileGetDescriptor fd).run kernel = .ok (desc, kernel)
  notNull : desc ≠ 0
  present : kernel.objs desc = some (.fileDescriptor value)
  released : Released region live live' kernel last fun ptr =>
    ptr = desc ∨ ptr ∈ closeBlocks kernel value.privateData
  positive : 1 ≤ value.index
  inTable : (value.index - 1).toNat < kernel.fileDescriptors.length
  final : next = { last with
    fileDescriptors := kernel.fileDescriptors.set (value.index - 1).toNat 0 }

section Close

variable {region : KernelRegion} {live live' : List Allocation} {kernel next : Kernel}

/-- A lookup in the table changes nothing. -/
theorem fileGetDescriptor_same {fd : Int} {desc : Nat}
    (run : (fileGetDescriptor fd).run kernel = .ok (desc, next)) : next = kernel := by
  unfold fileGetDescriptor at run
  split at run
  · cases run
    rfl
  · exact (Exec.demand_eq_ok.mp run).2

/-- A completed `file_free_descriptor` of an object that stays or is freed. -/
theorem fileFreeDescriptor_completed {freed : Nat → Prop} {middle : Kernel} {desc : Nat}
    {value : FileDescriptor} (present : kernel.objs desc = some (.fileDescriptor value))
    (released : Released region live live' kernel middle freed)
    (run : (fileFreeDescriptor desc).run middle = .ok ((), next)) :
    1 ≤ value.index ∧ (value.index - 1).toNat < kernel.fileDescriptors.length ∧ ∃ live'' last,
      Released region live live'' kernel last (fun ptr => ptr = desc ∨ freed ptr) ∧
        next = { last with
          fileDescriptors := kernel.fileDescriptors.set (value.index - 1).toNat 0 } := by
  obtain ⟨object, value', there, typed, rest⟩ := load_bind_eq_ok.mp run
  have stays : ¬ freed desc := by
    intro gone
    rw [released.gone desc gone] at there
    cases there
  rw [released.kept desc stays, present] at there
  cases there
  cases typed
  have same : middle.fileDescriptors = kernel.fileDescriptors := by rw [released.globals]
  obtain ⟨_, wrote, write, free⟩ := Exec.bind_eq_ok.mp rest
  rw [writeFileDescriptors, Exec.run_of, same] at write
  split at write
  next inTable =>
    cases write
    obtain ⟨live'', last, free', released'⟩ := released.free (by
      rw [released.kept desc stays, present]
      rfl)
    have freed' := kfree_table free' (kernel.fileDescriptors.set (value.index - 1).toNat 0)
    rw [free] at freed'
    cases freed'
    exact ⟨by omega, inTable.2, live'', last, released', rfl⟩
  · cases write

/-- **A completed `fclose`.** Without a descriptor in the table it is refused. -/
theorem fclose_completed (inv : KernelInvariant region live kernel) {fd res : Int}
    (run : (fclose fd).run kernel = .ok (res, next)) :
    (fileGetDescriptor fd).run kernel = .ok (0, kernel) ∧ res = -eio ∧ next = kernel ∨
      res = 0 ∧ ∃ live' last desc value, FileClosed region live live' kernel last next fd desc value :=
    by
  obtain ⟨desc, middle, lookup, rest⟩ := Exec.bind_eq_ok.mp run
  have same := fileGetDescriptor_same lookup
  rw [same] at lookup rest
  by_cases null : desc = 0
  · rw [if_pos null] at rest
    cases rest
    exact .inl ⟨null ▸ lookup, rfl, rfl⟩
  rw [if_neg null] at rest
  obtain ⟨object, value, present, typed, rest⟩ := load_bind_eq_ok.mp rest
  cases object <;> cases typed
  obtain ⟨kind, _, found, rest⟩ := Exec.bind_eq_ok.mp rest
  rw [(Exec.demand_eq_ok.mp found).2] at rest
  cases kind
  obtain ⟨res', closed, close, rest⟩ := Exec.bind_eq_ok.mp rest
  obtain ⟨rfl, freed⟩ := fat16Close_eq close inv.null
  rw [if_pos rfl] at rest
  obtain ⟨_, _, freeing, rest⟩ := Exec.bind_eq_ok.mp rest
  cases rest
  obtain ⟨_, _, live₁, released⟩ := kfreeAll_completed (.refl inv) freed
  obtain ⟨positive, inTable, live', last, released', final⟩ :=
    fileFreeDescriptor_completed present released freeing
  exact .inr ⟨rfl, live', last, desc, value, lookup, null, present, released'.congr fun ptr => by
    rw [or_false], positive, inTable, final⟩

end Close

end Peachos
