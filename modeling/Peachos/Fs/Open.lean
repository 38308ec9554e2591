import Peachos.Fs.MissingComponent
import Peachos.Fs.OpenFile
import Peachos.Fs.WalkRuns

/-! # What `fopen` opens

A file number that `fopen` returns leads through the descriptor table to a descriptor at position 0
and to the item that the walk along the path has made, of a file or of a directory (`fopen_opened`).
-/

namespace Peachos

open CInt Split

/-- `fd` is open on an item of the given type, at position `pos`. The item leads to `ptrs.entry`,
which is a directory entry or a directory. -/
structure OpenItem (kernel : Kernel) (fd : Nat) (ptrs : FilePointers) (type pos : Nat) : Prop where
  positive : 1 ≤ fd
  inTable : fd ≤ peachosMaxFileDescriptors
  slot : kernel.fileDescriptors[fd - 1]? = some ptrs.desc
  descNotNull : ptrs.desc ≠ 0
  desc : kernel.objs ptrs.desc = some (.fileDescriptor {
    index := fd
    filesystem := some .fat16
    privateData := ptrs.descriptor
    disk := .disk })
  descriptor : kernel.objs ptrs.descriptor =
    some (.fatFileDescriptor { item := ptrs.item, pos := pos })
  item : kernel.objs ptrs.item = some (.fatItem { pointer := ptrs.entry, type := type })
  null : kernel.objs 0 = none

/-- The item is one of a file, or of a directory that is not kept where bytes are. -/
def Tagged (kernel : Kernel) (type entry : Nat) : Prop :=
  type = fatItemTypeFile ∨
    type = fatItemTypeDirectory ∧ ∀ raw, kernel.objs entry ≠ some (.bytes raw)

/-- A descriptor of the filesystem at position 0, with its item. -/
structure ItemOpened (live : List Allocation) (kernel : Kernel) (descriptor item entry type : Nat) :
    Prop where
  opens : kernel.objs descriptor = some (.fatFileDescriptor { item := item, pos := 0 })
  opensHeld : ∃ allocation ∈ live, allocation.ptr = descriptor
  present : kernel.objs item = some (.fatItem { pointer := entry, type := type })
  presentHeld : ∃ allocation ∈ live, allocation.ptr = item
  tagged : Tagged kernel type entry

/-- A descriptor of the filesystem at position 0, and what was made for its item. -/
structure DescriptorOpened (live : List Allocation) (kernel : Kernel) (descriptor item : Nat)
    (raw : List UInt8) (owned : Nat → Prop) : Prop where
  opens : kernel.objs descriptor = some (.fatFileDescriptor { item := item, pos := 0 })
  notNull : item ≠ 0
  made : ItemMade live kernel raw item owned
  apart : ¬ owned descriptor

/-- A new descriptor in the table. -/
structure DescriptorMade (live : List Allocation) (kernel : Kernel) (index desc : Nat)
    (next : Kernel) : Prop where
  inTable : index < peachosMaxFileDescriptors
  notNull : desc ≠ 0
  null : next.objs 0 = none
  slot : next.fileDescriptors[index]? = some desc
  present : next.objs desc = some (.fileDescriptor { index := index + 1 })
  fresh : ∀ allocation ∈ live, allocation.ptr ≠ desc
  kept : ∀ allocation ∈ live, next.objs allocation.ptr = kernel.objs allocation.ptr
  old : ∀ other found, other ≠ desc → next.objs other = some found →
    kernel.objs other = some found
  disk : next.disk = kernel.disk

section Open

variable {region : KernelRegion} {live : List Allocation} {kernel next : Kernel}
  {volume : FatPrivate} {read : StreamRead}

/-- An item that was made is one of a file or of a directory. -/
theorem ItemMade.tagged {raw : List UInt8} {item : Nat} {owned : Nat → Prop}
    (made : ItemMade live kernel raw item owned) (notNull : item ≠ 0) :
    ∃ entry type, kernel.objs item = some (.fatItem { pointer := entry, type := type }) ∧
      Tagged kernel type entry := by
  cases made with
  | refused null _ => exact absurd null notNull
  | uncopied _ present _ => exact ⟨_, _, present, .inl rfl⟩
  | file pointer _ present _ _ => exact ⟨_, _, present, .inl rfl⟩
  | dangling pointer _ present freed _ =>
      exact ⟨_, _, present, .inr ⟨rfl, fun raw bytes => nomatch freed.symm.trans bytes⟩⟩
  | directory pointer _ _ _ _ present loaded _ =>
      exact ⟨_, _, present, .inr ⟨rfl, fun raw bytes => nomatch loaded.present.symm.trans bytes⟩⟩

/-- `fat16_open` that reports no error has walked to an item. -/
theorem fat16Open_walked (inv : KernelInvariant region live kernel) {path mode value : Nat}
    (run : (fat16Open read path mode).run kernel = .ok (value, next))
    (succeeds : isErr value = false) : mode = fileModeRead ∧ ∃ start last item,
      OpenStarts region live kernel value start ∧
      (fat16GetDirectoryEntry read path).run start = .ok (item, last) ∧ item ≠ 0 ∧
      (last.objs value).isSome ∧
      next = last.setObj value (some (.fatFileDescriptor { item := item, pos := 0 })) := by
  by_cases readOnly : mode = fileModeRead
  swap
  · rw [fat16Open, if_pos readOnly] at run
    cases run
    cases succeeds
  rw [fat16Open, if_neg (not_not.mpr readOnly)] at run
  obtain ⟨descriptor, start, requested, rest⟩ := Exec.bind_eq_ok.mp run
  clear run
  rcases openStarts_or_refused inv requested with ⟨rfl, rfl⟩ | starts
  · rw [if_pos rfl] at rest
    cases rest
    cases succeeds
  rw [if_neg starts.placed.notNull] at rest
  obtain ⟨item, last, entry, rest⟩ := Exec.bind_eq_ok.mp rest
  obtain ⟨_, _, _, _, rest⟩ := load_bind_eq_ok.mp rest
  obtain ⟨there, rest⟩ := store_bind_eq_ok.mp rest
  by_cases null : item = 0
  · rw [if_pos null] at rest
    obtain ⟨_, _, _, rest⟩ := Exec.bind_eq_ok.mp rest
    cases rest
    cases succeeds
  rw [if_neg null] at rest
  obtain ⟨_, _, present, typed, rest⟩ := load_bind_eq_ok.mp rest
  rw [Kernel.setObj_objs_self] at present
  cases present
  cases typed
  obtain ⟨_, rest⟩ := store_bind_eq_ok.mp rest
  rw [Kernel.setObj_setObj] at rest
  cases rest
  exact ⟨readOnly, start, last, item, starts, entry, null, there, rfl⟩

/-- The item of the walk is opened. -/
theorem WalkMade.opened {live' : List Allocation} {start last : Kernel} {value item : Nat}
    {raw : List UInt8} {all owned : Nat → Prop} (inv : KernelInvariant region live kernel)
    (starts : OpenStarts region live kernel value start)
    (made : WalkMade region (⟨value, sizeofFatItem⟩ :: live) live' start last item raw all owned)
    (notNull : item ≠ 0) (there : (last.objs value).isSome) :
    Grown region live live' kernel
        (last.setObj value (some (.fatFileDescriptor { item := item, pos := 0 })))
        (fun ptr => ptr = value ∨ all ptr) ∧
      DescriptorOpened live'
        (last.setObj value (some (.fatFileDescriptor { item := item, pos := 0 }))) value item raw
        owned := by
  have fresh : ¬ all value := made.grown.fresh ⟨value, sizeofFatItem⟩ List.mem_cons_self
  have whole := (starts.grown inv).trans made.grown
  have held : ∃ allocation ∈ live', allocation.ptr = value := whole.held value (.inl rfl)
  have notNone : last.objs value ≠ none := fun none => by
    rw [none] at there
    cases there
  have other : ¬ owned value := fun own => fresh (made.within _ own)
  refine ⟨whole.setObj starts.placed.fresh there _, Kernel.setObj_objs_self .., notNull, ?_, other⟩
  have apart : ∀ ptr, ptr = value → (∃ allocation ∈ live', allocation.ptr = ptr) ∧ ¬ owned ptr ∧
      last.objs ptr ≠ none := by
    rintro ptr rfl
    exact ⟨held, other, notNone⟩
  exact made.made.of_kept (fun ptr other => Kernel.setObj_objs_of_ne _ _ other) apart
    fun allocation member => ⟨allocation, member, rfl⟩

/-- **`fat16_open`** that reports no error: the descriptor and the item are new. -/
theorem fat16Open_made (reads : ReadsStreams read) (inv : KernelInvariant region live kernel)
    (root : RootLive live volume kernel) {path mode value : Nat} {names : List (List UInt8)}
    {ptrs : List Nat} (pathLive : PathLive live kernel path names ptrs)
    (run : (fat16Open read path mode).run kernel = .ok (value, next))
    (succeeds : isErr value = false) :
    ∃ live' all item raw owned, Grown region live live' kernel next all ∧
      DescriptorOpened live' next value item raw owned ∧ all value ∧ ∀ ptr, owned ptr → all ptr := by
  obtain ⟨_, start, last, item, starts, entry, notNull, there, rfl⟩ :=
    fat16Open_walked inv run succeeds
  have grown := starts.grown inv
  obtain ⟨live', all, raw, owned, grown', made, within⟩ := fat16GetDirectoryEntry_made reads
    grown.invariant (root.grown grown) (pathLive.grown grown) entry
  obtain ⟨whole, opened⟩ := WalkMade.opened inv starts ⟨grown', made, within⟩ notNull there
  exact ⟨live', _, item, raw, owned, whole, opened, .inl rfl, fun ptr own => .inr (within ptr own)⟩

theorem fat16Open_opened (reads : ReadsStreams read) (inv : KernelInvariant region live kernel)
    (root : RootLive live volume kernel) {path mode value : Nat} {names : List (List UInt8)}
    {ptrs : List Nat} (pathLive : PathLive live kernel path names ptrs)
    (run : (fat16Open read path mode).run kernel = .ok (value, next))
    (succeeds : isErr value = false) :
    ∃ live' item entry type, KernelInvariant region live' next ∧
      ItemOpened live' next value item entry type ∧ next.disk = kernel.disk := by
  obtain ⟨live', all, item, raw, owned, grown, opened, own, within⟩ :=
    fat16Open_made reads inv root pathLive run succeeds
  obtain ⟨entry, type, present, tagged⟩ := opened.made.tagged opened.notNull
  exact ⟨live', item, entry, type, grown.invariant, ⟨opened.opens, grown.held value own, present,
    grown.held item (within item (opened.made.owns_item opened.notNull)), tagged⟩, grown.disk⟩

theorem fileNewDescriptorLoop_completed (inv : KernelInvariant region live kernel)
    {res : Int} {desc : Nat} (count : Nat) : ∀ i, i + count = peachosMaxFileDescriptors →
      (fileNewDescriptorLoop count i).run kernel = .ok ((res, desc), next) →
      res < 0 ∨ ∃ index, DescriptorMade live kernel index desc next := by
  induction count with
  | zero =>
      intro i _ run
      cases run
      exact .inl (by decide)
  | succ count ih =>
      intro i inside run
      obtain ⟨slot, here, found, rest⟩ := Exec.bind_eq_ok.mp run
      clear run
      obtain ⟨_, rfl⟩ := Exec.demand_eq_ok.mp found
      by_cases free : slot = 0
      swap
      · rw [if_neg free] at rest
        exact ih (i + 1) (by omega) rest
      rw [if_pos free] at rest
      obtain ⟨ptr, allocated, requested, rest⟩ := Exec.bind_eq_ok.mp rest
      obtain ⟨_, _, there, typed, rest⟩ := load_bind_eq_ok.mp rest
      have placed := kmalloc_used inv (by decide) (by decide) requested (by rw [there]; rfl)
      rw [placed.present] at there
      cases there
      cases typed
      obtain ⟨live', rest⟩ := store_bind_eq_ok.mp rest
      obtain ⟨_, wrote, write, rest⟩ := Exec.bind_eq_ok.mp rest
      cases rest
      rw [writeFileDescriptors, Exec.run_of] at write
      split at write
      next inTable =>
        cases write
        refine .inr ⟨i, by omega, placed.notNull, ?_, ?_, Kernel.setObj_objs_self .., placed.fresh,
          fun allocation member => ?_, fun other contents different present => ?_, ?_⟩
        · exact (Kernel.setObj_objs_of_ne _ _ placed.notNull.symm).trans placed.invariant.null
        · exact List.getElem?_set_self inTable.2
        · exact (Kernel.setObj_objs_of_ne _ _ (placed.fresh allocation member)).trans
            (placed.kept allocation member)
        · exact placed.old other contents different
            ((Kernel.setObj_objs_of_ne _ _ different).symm.trans present)
        · change allocated.disk = _
          rw [placed.globals]
      · cases write

/-- The open item, once its descriptor in the table is filled in. -/
theorem ItemOpened.openItem {descriptor item entry type index desc : Nat}
    (opened : ItemOpened live kernel descriptor item entry type)
    (made : DescriptorMade live kernel index desc next) :
    OpenItem (next.setObj desc (some (.fileDescriptor {
        index := (index + 1 : Nat)
        filesystem := some .fat16
        privateData := descriptor
        disk := .disk }))) (index + 1) ⟨desc, descriptor, item, entry⟩ type 0 := by
  have kept : ∀ {ptr : Nat} {contents : Obj}, (∃ allocation ∈ live, allocation.ptr = ptr) →
      kernel.objs ptr = some contents → ∀ after,
        (next.setObj desc after).objs ptr = some contents := by
    rintro ptr contents ⟨allocation, member, rfl⟩ present after
    rw [Kernel.setObj_objs_of_ne _ _ (made.fresh allocation member), made.kept allocation member,
      present]
  constructor
  · exact Nat.succ_pos _
  · exact made.inTable
  · exact made.slot
  · exact made.notNull
  · exact Kernel.setObj_objs_self ..
  · exact kept opened.opensHeld opened.opens _
  · exact kept opened.presentHeld opened.present _
  · exact (Kernel.setObj_objs_of_ne _ _ made.notNull.symm).trans made.null

/-- No bytes come to the place of a directory. -/
theorem Tagged.made {type entry index desc : Nat} (tagged : Tagged kernel type entry)
    (made : DescriptorMade live kernel index desc next) (value : FileDescriptor) :
    Tagged (next.setObj desc (some (.fileDescriptor value))) type entry := by
  refine tagged.imp_right fun ⟨directory, other⟩ => ⟨directory, fun raw present => ?_⟩
  by_cases same : entry = desc
  · rw [same, Kernel.setObj_objs_self] at present
    cases present
  · rw [Kernel.setObj_objs_of_ne _ _ same] at present
    exact other raw (made.old entry _ same present)

/-- The end of `fopen` after an error returns 0. -/
theorem fopenCleanUp_completed {outcome : OpenOutcome} {res : Int}
    (run : (fopenCleanUp outcome).run kernel = .ok (res, next)) : res = 0 := by
  have any : ∀ {α : Type} (program : K α), Exec.Ensures (fun _ => True) program fun _ => True :=
    fun _ _ _ _ _ _ => ⟨trivial, trivial⟩
  have returns : Exec.Ensures (fun _ => True) (fopenCleanUp outcome) fun res => res = 0 := by
    unfold fopenCleanUp
    dsimp only
    have freed := fun {c : Prop} [Decidable c] (program : K Unit) {rest : K Int}
        (last : Exec.Ensures (fun _ => True) rest fun res => res = 0) =>
      Exec.Ensures.ite (fun _ : c => .bind (any program) fun _ _ => last) fun _ => last
    exact freed _ (.ite (fun _ => .bind (any _) fun _ _ => freed _ (.pure rfl)) fun _ =>
      freed _ (.pure rfl))
  exact (returns _ _ _ trivial run).2

/-- The part of `fopen` on the disk. -/
theorem fopenOnDisk_opened (reads : ReadsStreams read) (inv : KernelInvariant region live kernel)
    (root : RootLive live volume kernel) {rootPath first : Nat} {names : List (List UInt8)}
    {ptrs : List Nat} (pathLive : PathLive live kernel first names ptrs) {modeStr : List UInt8}
    (mounted : kernel.disk.filesystem = some .fat16) {outcome : OpenOutcome}
    (run : (fopenOnDisk read rootPath first modeStr).run kernel = .ok (outcome, next))
    (succeeds : ¬ outcome.res < 0) :
    ∃ fd : Nat, outcome.res = fd ∧ ∃ ptrs type, OpenItem next fd ptrs type 0 ∧
      Tagged next type ptrs.entry := by
  unfold fopenOnDisk at run
  by_cases invalid : fileGetModeByString modeStr = fileModeInvalid
  · rw [if_pos invalid] at run
    cases run
    exact absurd (show -einvagr < 0 by decide) succeeds
  rw [if_neg invalid] at run
  obtain ⟨descriptor, middle, opening, rest⟩ := Exec.bind_eq_ok.mp run
  clear run
  cases error : isErr descriptor with
  | true =>
      rw [error, if_pos rfl] at rest
      obtain ⟨same, _⟩ := Prod.mk.inj (Except.ok.inj rest)
      rw [← same] at succeeds
      rw [isErr] at error
      exact absurd (of_decide_eq_true error) succeeds
  | false =>
      rw [error, if_neg (by decide)] at rest
      obtain ⟨live', item, entry, type, inv', opened, disk⟩ :=
        fat16Open_opened reads inv root pathLive opening error
      obtain ⟨⟨res, desc⟩, last, table, rest⟩ := Exec.bind_eq_ok.mp rest
      dsimp only at rest
      rcases fileNewDescriptorLoop_completed inv' _ 0 (Nat.zero_add _) table with
        failed | ⟨index, made⟩
      · rw [if_pos failed] at rest
        cases rest
        exact absurd failed succeeds
      by_cases failed : res < 0
      · rw [if_pos failed] at rest
        cases rest
        exact absurd failed succeeds
      rw [if_neg failed] at rest
      obtain ⟨now, _, here, rest⟩ := Exec.bind_eq_ok.mp rest
      cases here
      obtain ⟨_, _, there, typed, rest⟩ := load_bind_eq_ok.mp rest
      rw [made.present] at there
      cases there
      cases typed
      obtain ⟨_, rest⟩ := store_bind_eq_ok.mp rest
      rw [made.disk, disk, mounted] at rest
      cases rest
      exact ⟨index + 1, rfl, _, type, opened.openItem made, opened.tagged.made made _⟩

/-- **What `fopen` opens.** The file number that it returns is open on an item at position 0, and
where that is the item of a directory, there are no bytes at it. -/
theorem fopen_opened (reads : ReadsStreams read) (inv : KernelInvariant region live kernel)
    (root : RootLive live volume kernel) {filename modeStr : List UInt8} {res : Int}
    (run : (fopen read filename modeStr).run kernel = .ok (res, next)) (positive : 0 < res) :
    ∃ fd : Nat, res = fd ∧ ∃ ptrs type, OpenItem next fd ptrs type 0 ∧
      Tagged next type ptrs.entry := by
  obtain ⟨outcome, last, before, rest⟩ := Exec.bind_eq_ok.mp run
  clear run
  by_cases failed : outcome.res < 0
  · rw [if_pos failed] at rest
    rw [fopenCleanUp_completed rest] at positive
    exact absurd positive (lt_irrefl _)
  rw [if_neg failed] at rest
  cases rest
  obtain ⟨rootPath, parsed, parse, rest⟩ := Exec.bind_eq_ok.mp before
  clear before
  rcases pathparserParse_completed inv parse with ⟨rfl, _⟩ | ⟨notNull, _, drive, _, names, _, live',
    ptrs, extended, parsedPath⟩
  · rw [if_pos rfl] at rest
    cases rest
    exact absurd (show -einvagr < 0 by decide) failed
  rw [if_neg notNull] at rest
  obtain ⟨first, present, parts⟩ := parsedPath.parts
  obtain ⟨_, _, present', typed, rest⟩ := load_bind_eq_ok.mp rest
  rw [present] at present'
  cases present'
  cases typed
  have grown := extended.toGrown
  split at rest
  · cases rest
    exact absurd (show -einvagr < 0 by decide) failed
  split at rest
  · cases rest
    exact absurd (show -eio < 0 by decide) failed
  obtain ⟨disk, _, found, rest⟩ := Exec.bind_eq_ok.mp rest
  cases found
  split at rest
  · cases rest
    exact absurd (show -eio < 0 by decide) failed
  next mounted =>
    have pathLive : PathLive live' parsed first (components 47 names) ptrs :=
      ⟨parts, fun ptr member => extended.held ptr (.inr member)⟩
    refine fopenOnDisk_opened reads extended.invariant (root.grown grown) pathLive ?_ rest failed
    cases named : parsed.disk.filesystem with
    | none => exact absurd named mounted
    | some kind =>
        cases kind
        rfl

end Open

end Peachos
