import Peachos.Fs.CloseBlocks
import Peachos.Fs.FileTableRuns
import Peachos.Fs.OpenError

/-! # What an open file leaves allocated

`fopen` frees the parsed path when it fails only. The calls on open files write contents, positions
and streams and neither allocate nor free, and `fclose` frees what the descriptor leads to, which the
path is not part of: its root is still allocated when the file is closed (`fopen_leaks`).
-/

namespace Peachos

open CInt

/-- The object without what the calls on open files write. -/
def Obj.shape : Obj → Obj
  | .bytes _ => .bytes []
  | .diskStream _ => .diskStream {}
  | .fatFileDescriptor value => .fatFileDescriptor { value with pos := 0 }
  | other => other

/-- Only contents, positions and streams were written. -/
structure SameShape (start kernel : Kernel) : Prop where
  globals : kernel = { start with objs := kernel.objs }
  shape : ∀ ptr, (kernel.objs ptr).map Obj.shape = (start.objs ptr).map Obj.shape

namespace SameShape

variable {start kernel next : Kernel}

theorem refl (start : Kernel) : SameShape start start := ⟨rfl, fun _ => rfl⟩

theorem trans (first : SameShape start kernel) (second : SameShape kernel next) :
    SameShape start next where
  globals := by rw [second.globals, first.globals]
  shape := fun ptr => (second.shape ptr).trans (first.shape ptr)

theorem setObj {ptr : Nat} {before after : Obj} (present : kernel.objs ptr = some before)
    (same : after.shape = before.shape) : SameShape kernel (kernel.setObj ptr (some after)) where
  globals := rfl
  shape := by
    intro other
    by_cases here : other = ptr
    · rw [here, Kernel.setObj_objs_self, present, Option.map_some, Option.map_some, same]
    · rw [Kernel.setObj_objs_of_ne _ _ here]

theorem of_onlyStreams (only : OnlyStreams start kernel) : SameShape start kernel where
  globals := only.globals
  shape := by
    intro ptr
    rcases only.moved ptr with same | ⟨before, after, started, stopped, _⟩
    · rw [same]
    · rw [started, stopped]
      rfl

theorem isSome (same : SameShape start kernel) (ptr : Nat) :
    (kernel.objs ptr).isSome = (start.objs ptr).isSome := by
  rw [← Option.isSome_map (f := Obj.shape), same.shape, Option.isSome_map]

/-- An object that the calls do not write is the same. -/
theorem obj (same : SameShape start kernel) {ptr : Nat} {contents : Obj}
    (present : start.objs ptr = some contents) (whole : ∀ other : Obj,
      other.shape = contents.shape → other = contents) : kernel.objs ptr = some contents := by
  have shape := same.shape ptr
  rw [present, Option.map_some, Option.map_eq_some_iff] at shape
  obtain ⟨other, here, alike⟩ := shape
  rw [here, whole other alike]

theorem invariant (same : SameShape start kernel) {region : KernelRegion}
    {live : List Allocation} (inv : KernelInvariant region live start) :
    KernelInvariant region live kernel := by
  have heap : kernel.heap = start.heap := by rw [same.globals]
  refine ⟨by rw [heap]; exact inv.heap, fun allocation member => ?_, fun ptr present => ?_⟩
  · rw [same.isSome]
    exact inv.held allocation member
  · rw [same.isSome] at present
    rw [heap]
    exact inv.owned ptr present

end SameShape

section Calls

variable {start : Kernel}

/-- A program that moves streams only. -/
theorem sameShape_of_streams {α : Type} {program : K α}
    (moves : ∀ kernel, Exec.Ensures (OnlyStreams kernel) program fun _ => True) :
    Exec.Ensures (SameShape start) program fun _ => True := by
  intro kernel value final same run
  exact ⟨same.trans (.of_onlyStreams (moves kernel kernel value final (.refl kernel) run).1),
    trivial⟩

theorem writeBytes_sameShape (ptr offset : Nat) (raw : List UInt8) :
    Exec.Ensures (SameShape start) (writeBytes ptr offset raw) fun _ => True := by
  intro kernel value final same run
  obtain ⟨contents, present, _, rfl⟩ := writeBytes_eq_ok run
  exact ⟨same.trans (.setObj present rfl), trivial⟩

theorem load_sameShape {α : Type} (view : Obj → Option α) (ptr : Nat) :
    Exec.Ensures (SameShape start) (load view ptr) fun _ => True :=
  .demand fun _ _ _ _ => trivial

/-- A new position. -/
theorem storePos_sameShape {descriptor pos : Nat} {β : Type} {next : FatFileDescriptor → K β}
    (rest : ∀ value, Exec.Ensures (SameShape start) (next value) fun _ => True) :
    Exec.Ensures (SameShape start) (do
      let value ← load Obj.fatFileDescriptor? descriptor
      store descriptor (.fatFileDescriptor { value with pos := pos })
      next value) fun _ => True := by
  refine loadStore_ensures (fun kernel contents value same present typed => ?_) rest
  cases contents <;> cases typed
  exact same.trans (.setObj present rfl)

theorem fat16ReadLoop_sameShape (item size out count : Nat) : ∀ (offset : Int) (outOffset : Nat),
    Exec.Ensures (SameShape start)
      (fat16ReadLoop diskstreamerRead item size out count offset outOffset) fun _ => True := by
  induction count with
  | zero => exact fun _ _ => .pure trivial
  | succ count ih =>
      intro offset outOffset
      refine .bind (load_sameShape _ _) fun _ _ => ?_
      refine .bind (sameShape_of_streams fun kernel =>
        fat16ReadInternal_streams diskstreamerRead_readsStreams _ _ _) fun _ _ => ?_
      exact .bind (writeBytes_sameShape _ _ _) fun _ _ =>
        .ite (fun _ => .pure trivial) fun _ => ih _ _

theorem fat16Read_sameShape (descriptor size nmemb out : Nat) :
    Exec.Ensures (SameShape start) (fat16Read diskstreamerRead descriptor size nmemb out)
      fun _ => True := by
  refine .bind (load_sameShape _ _) fun _ _ => .bind (load_sameShape _ _) fun _ _ =>
    .bind (fat16ReadLoop_sameShape _ _ _ _ _ _) fun outcome _ => ?_
  cases outcome with
  | error res => exact .pure trivial
  | ok offset => exact storePos_sameShape fun _ => .pure trivial

theorem fat16Seek_sameShape (descriptor offset seekMode : Nat) :
    Exec.Ensures (SameShape start) (fat16Seek descriptor offset seekMode) fun _ => True := by
  intro kernel res final same run
  obtain ⟨object, value, present, typed, run⟩ := load_bind_eq_ok.mp run
  cases object <;> cases typed
  have stored : ∀ pos, (do
      store descriptor (.fatFileDescriptor { value with pos := pos })
      pure (0 : Int) : K Int).run kernel = .ok (res, final) → SameShape start final := by
    intro pos run
    obtain ⟨_, done⟩ := store_bind_eq_ok.mp run
    cases done
    exact same.trans (.setObj present rfl)
  have unchanged : ∀ code : Int, (pure code : K Int).run kernel = .ok (res, final) →
      SameShape start final := by
    intro code run
    cases run
    exact same
  obtain ⟨_, _, _, _, run⟩ := load_bind_eq_ok.mp run
  refine ⟨?_, trivial⟩
  split at run
  · exact unchanged _ run
  obtain ⟨_, _, _, _, run⟩ := load_bind_eq_ok.mp run
  split at run
  · exact unchanged _ run
  split at run
  · exact stored _ run
  split at run
  · exact unchanged _ run
  split at run
  · exact stored _ run
  · exact unchanged _ run

theorem fat16Stat_sameShape (descriptor : Nat) (stat : FileStat) :
    Exec.Ensures (SameShape start) (fat16Stat descriptor stat) fun _ => True :=
  .bind (load_sameShape _ _) fun _ _ => .bind (load_sameShape _ _) fun _ _ =>
    .ite (fun _ => .pure trivial) fun _ => .bind (load_sameShape _ _) fun _ _ => .pure trivial

theorem fileGetDescriptor_sameShape (fd : Int) :
    Exec.Ensures (SameShape start) (fileGetDescriptor fd) fun _ => True := by
  intro kernel desc final same run
  rw [fileGetDescriptor_same run]
  exact ⟨same, trivial⟩

theorem theDisk_sameShape (ptr : DiskPtr) :
    Exec.Ensures (SameShape start) (theDisk ptr) fun _ => True :=
  .ite (fun _ => .pure trivial) fun _ => .fault _

theorem theFilesystem_sameShape (filesystem : Option Filesystem) :
    Exec.Ensures (SameShape start) (theFilesystem filesystem) fun _ => True :=
  .demand fun _ _ _ _ => trivial

/-- **A call on an open file** neither allocates nor frees. -/
theorem fileCall_sameShape (fd : Int) (call : FileCall) :
    Exec.Ensures (SameShape start) (call.perform fd) fun _ => True := by
  have onFile : ∀ {α : Type} (closed : α) (next : FileDescriptor → K α),
      (∀ value, Exec.Ensures (SameShape start) (next value) fun _ => True) →
      Exec.Ensures (SameShape start) (do
        let desc ← fileGetDescriptor fd
        if desc = 0 then pure closed
        else do
          let value ← load Obj.fileDescriptor? desc
          next value) fun _ => True := fun closed next kept =>
    .bind (fileGetDescriptor_sameShape fd) fun _ _ => .ite (fun _ => .pure trivial) fun _ =>
      .bind (load_sameShape _ _) fun value _ => kept value
  cases call with
  | fread buf size nmemb =>
      refine .bind (.ite (fun _ => .pure trivial) fun _ => onFile _ _ fun value => ?_) fun _ _ =>
        .pure trivial
      refine .bind (theFilesystem_sameShape _) fun kind _ => ?_
      cases kind
      exact .bind (theDisk_sameShape _) fun _ _ => fat16Read_sameShape _ _ _ _
  | fseek offset whence =>
      refine .bind (onFile _ _ fun value => ?_) fun _ _ => .pure trivial
      refine .bind (theFilesystem_sameShape _) fun kind _ => ?_
      cases kind
      exact fat16Seek_sameShape _ _ _
  | fstat stat =>
      refine .bind (onFile _ _ fun value => ?_) fun _ _ => .pure trivial
      refine .bind (theFilesystem_sameShape _) fun kind _ => ?_
      cases kind
      exact fat16Stat_sameShape _ _

end Calls

/-- Make the calls on open files one after the other. -/
def performFileCalls : List (Int × FileCall) → K Unit
  | [] => pure ()
  | (fd, call) :: calls => do
      let _ ← call.perform fd
      performFileCalls calls

theorem performFileCalls_sameShape {start : Kernel} (calls : List (Int × FileCall)) :
    Exec.Ensures (SameShape start) (performFileCalls calls) fun _ => True := by
  induction calls with
  | nil => exact .pure trivial
  | cons head calls ih => exact .bind (fileCall_sameShape head.1 head.2) fun _ _ => ih

section Blocks

variable {region : KernelRegion} {live live₁ live₂ : List Allocation}
  {start kernel parsed made allocated : Kernel} {descriptor item desc : Nat} {raw : List UInt8}
  {all owned : Nat → Prop}

/-- What closing frees depends on what the calls do not write. -/
theorem SameShape.closeBlocks_eq (same : SameShape start kernel) (descriptor : Nat) :
    closeBlocks kernel descriptor = closeBlocks start descriptor := by
  have descriptors : ∀ contents : Option Obj,
      (contents.bind Obj.fatFileDescriptor?).map FatFileDescriptor.item =
        ((contents.map Obj.shape).bind Obj.fatFileDescriptor?).map FatFileDescriptor.item := by
    rintro (_ | contents)
    · rfl
    · cases contents <;> rfl
  have items : ∀ contents : Option Obj,
      contents.bind Obj.fatItem? = (contents.map Obj.shape).bind Obj.fatItem? := by
    rintro (_ | contents)
    · rfl
    · cases contents <;> rfl
  have directories : ∀ contents : Option Obj,
      contents.bind Obj.fatDirectory? = (contents.map Obj.shape).bind Obj.fatDirectory? := by
    rintro (_ | contents)
    · rfl
    · cases contents <;> rfl
  have blocks : ∀ directory, directoryBlocks kernel directory = directoryBlocks start directory := by
    intro directory
    unfold directoryBlocks
    rw [directories, same.shape, ← directories]
  have opened : ((kernel.objs descriptor).bind Obj.fatFileDescriptor?).map FatFileDescriptor.item =
      ((start.objs descriptor).bind Obj.fatFileDescriptor?).map FatFileDescriptor.item := by
    rw [descriptors, same.shape, ← descriptors]
  unfold closeBlocks
  cases here : (kernel.objs descriptor).bind Obj.fatFileDescriptor? with
  | none =>
      rw [here, Option.map_none, eq_comm, Option.map_eq_none_iff] at opened
      rw [opened]
  | some value =>
      rw [here, Option.map_some, eq_comm, Option.map_eq_some_iff] at opened
      obtain ⟨before, there, alike⟩ := opened
      rw [there]
      dsimp only
      rw [alike, items, same.shape, ← items]
      cases (start.objs value.item).bind Obj.fatItem? with
      | none => rfl
      | some item =>
          dsimp only
          rw [contentBlocks, contentBlocks, blocks]

/-- A new descriptor of the table adds nothing to what closing frees. -/
theorem PathOpened.closeBlocks_subset
    (opened : PathOpened region live₁ live₂ parsed made descriptor item raw all owned)
    (placed : Placed region live₂ (⟨desc, sizeofFileDescriptor⟩ :: live₂) made
      (.fileDescriptor {}) desc allocated) (value : FileDescriptor) (slots : List Nat) :
    ∀ ptr ∈ closeBlocks (allocated.setDescriptor desc value slots) descriptor,
      ptr ∈ closeBlocks made descriptor := by
  have kept : ∀ ptr, all ptr →
      (allocated.setDescriptor desc value slots).objs ptr = made.objs ptr := by
    intro ptr own
    obtain ⟨allocation, member, rfl⟩ := opened.grown.held ptr own
    exact (Kernel.setObj_objs_of_ne _ _ (placed.fresh allocation member)).trans
      (placed.kept allocation member)
  have directories : ∀ directory,
      ∀ ptr ∈ directoryBlocks (allocated.setDescriptor desc value slots) directory,
        ptr ∈ directoryBlocks made directory := by
    intro directory ptr member
    rw [directoryBlocks] at member
    cases here : (allocated.setDescriptor desc value slots).objs directory with
    | none =>
        rw [here] at member
        cases member
    | some contents =>
        by_cases same : directory = desc
        · rw [same, show (allocated.setDescriptor desc value slots).objs desc = _ from
            Kernel.setObj_objs_self ..] at here
          cases here
          rw [same, show (allocated.setDescriptor desc value slots).objs desc = _ from
            Kernel.setObj_objs_self ..] at member
          cases member
        · have before := placed.old directory _ same
            ((Kernel.setObj_objs_of_ne _ _ same).symm.trans here)
          rw [here] at member
          rw [directoryBlocks, before]
          exact member
  have itemHere := kept item (opened.within _ (opened.opened.made.owns_item opened.opened.notNull))
  have opens := opened.opened.opens
  intro ptr member
  rw [closeBlocks, kept _ opened.own, opens, Option.bind_some,
    Obj.fatFileDescriptor?] at member
  dsimp only at member
  rw [itemHere] at member
  rw [closeBlocks, opens, Option.bind_some, Obj.fatFileDescriptor?]
  dsimp only
  cases found : (made.objs item).bind Obj.fatItem? with
  | none =>
      rw [found] at member
      cases member
  | some value =>
      rw [found] at member
      dsimp only at member ⊢
      rw [List.mem_append] at member ⊢
      refine member.imp_left fun inner => ?_
      rw [contentBlocks] at inner ⊢
      split_ifs at inner ⊢
      · exact directories _ ptr inner
      · exact inner
      · exact inner

/-- The blocks of the path are none of them. -/
theorem PathOpened.spares
    (opened : PathOpened region live₁ live₂ parsed made descriptor item raw all owned)
    (allocation : Allocation) (member : allocation ∈ live₁) :
    allocation.ptr ∉ closeBlocks made descriptor := by
  intro freed
  rcases closeBlocks_apart opened.opened opened.grown.invariant _ freed with same | mine | unheld
  · exact opened.grown.fresh allocation member (same ▸ opened.own)
  · exact opened.grown.fresh allocation member (opened.within _ mine)
  · exact unheld allocation (opened.grown.grown member) rfl

end Blocks

/-- The file `fd` is open, and a block that was not live before is none of those that closing the
file frees. -/
structure LeavesBlock (region : KernelRegion) (live live' : List Allocation) (opened : Kernel)
    (fd : Int) (index desc descriptor : Nat) (block : Allocation) : Prop where
  number : fd = (index + 1 : Nat)
  invariant : KernelInvariant region live' opened
  slot : opened.fileDescriptors[index]? = some desc
  present : opened.objs desc = some (.fileDescriptor (.opened index descriptor))
  taken : block ∈ live'
  new : ∀ allocation ∈ live, allocation.ptr ≠ block.ptr
  notDesc : block.ptr ≠ desc
  spared : block.ptr ∉ closeBlocks opened descriptor

section Leak

variable {region : KernelRegion} {live live' : List Allocation} {kernel opened used closed : Kernel}
  {volume : FatPrivate} {filename modeStr : List UInt8} {fd : Int} {index desc descriptor : Nat}
  {block : Allocation}

/-- An open file leaves the root of its path. -/
theorem fopen_leavesBlock (inv : KernelInvariant region live kernel)
    (mounted : RootLive live volume kernel) (filesystem : kernel.disk.filesystem = some .fat16)
    (size : kernel.fileDescriptors.length = peachosMaxFileDescriptors)
    (opening : (fopen diskstreamerRead filename modeStr).run kernel = .ok (fd, opened))
    (succeeds : fd ≠ 0) : ∃ live' index desc descriptor block,
      LeavesBlock region live live' opened fd index desc descriptor block := by
  rcases fopen_completed diskstreamerRead_readsStreams inv mounted filesystem size opening with
    ⟨null, _⟩ | ⟨positive, outcome, same, reaches⟩
  · exact absurd null succeeds
  rw [← same] at positive
  cases reaches with
  | refused failed _ _ _ => exact absurd failed (not_lt.mpr positive.le)
  | parsed failed _ _ _ _ => exact absurd failed (not_lt.mpr positive.le)
  | error _ _ _ _ error _ => exact absurd (of_decide_eq_true error) (not_lt.mpr positive.le)
  | full _ _ _ _ _ => exact absurd positive (show ¬ 0 < -enomem by decide)
  | @opened parsed made allocated live₁ live₂ root first index desc descriptor item names ptrs raw
      all owned path opens slot placed =>
      obtain ⟨block, member, here⟩ := path.extended.held root (.inl rfl)
      have member' := opens.grown.grown member
      have inv' := placed.invariant.setObj (by rw [placed.present]; rfl)
        (.fileDescriptor (.opened index descriptor))
      refine ⟨_, index, desc, descriptor, block, same.symm, inv'.of_same rfl rfl,
        List.getElem?_set_self (List.getElem?_eq_some_iff.mp slot.free).1,
        Kernel.setObj_objs_self .., List.mem_cons_of_mem _ member', fun allocation old same => ?_,
        placed.fresh block member', fun freed => ?_⟩
      · exact path.extended.fresh allocation old (.inl (same.trans here))
      · exact opens.spares block member (opens.closeBlocks_subset placed _ _ _ freed)

/-- The block that is left when the file is closed. -/
theorem LeavesBlock.stays
    (leaves : LeavesBlock region live live' opened fd index desc descriptor block)
    (between : SameShape opened used) (closing : (fclose fd).run used = .ok (0, closed)) :
    ∃ live'', KernelInvariant region live'' closed ∧ block ∈ live'' := by
  have inv := between.invariant leaves.invariant
  rcases fclose_completed inv closing with ⟨_, refused, _⟩ |
    ⟨_, live'', last, desc', value, closes⟩
  · exact absurd refused (by decide)
  have slots : used.fileDescriptors = opened.fileDescriptors := by rw [between.globals]
  have given : index + 1 < peachosMaxFileDescriptors := by
    by_contra beyond
    have refused := @fileGetDescriptor_beyond used fd (by rw [leaves.number]; omega)
    rw [closes.lookup] at refused
    exact closes.notNull (Prod.mk.inj (Except.ok.inj refused)).1
  have found := fileGetDescriptor_slot given (slots ▸ leaves.slot)
  rw [← leaves.number, closes.lookup] at found
  obtain ⟨rfl, _⟩ := Prod.mk.inj (Except.ok.inj found)
  have present := between.obj leaves.present fun other alike => by
    cases other <;> cases alike
    rfl
  rw [closes.present] at present
  cases present
  refine ⟨live'', ?_, (closes.released.remaining block).mpr ⟨leaves.taken, ?_⟩⟩
  · rw [closes.final]
    exact closes.released.invariant.of_same rfl rfl
  · rintro (same | freed)
    · exact leaves.notDesc same
    · exact leaves.spared (between.closeBlocks_eq descriptor ▸ freed)

/-- **Opening and closing leaks.** Whatever the calls between, more is allocated after `fclose` than
before `fopen`. -/
theorem fopen_leaks (inv : KernelInvariant region live kernel)
    (mounted : RootLive live volume kernel) (filesystem : kernel.disk.filesystem = some .fat16)
    (size : kernel.fileDescriptors.length = peachosMaxFileDescriptors)
    (opening : (fopen diskstreamerRead filename modeStr).run kernel = .ok (fd, opened))
    (succeeds : fd ≠ 0) {calls : List (Int × FileCall)}
    (between : (performFileCalls calls).run opened = .ok ((), used))
    (closing : (fclose fd).run used = .ok (0, closed)) : ¬ SameLive region live closed := by
  obtain ⟨live', index, desc, descriptor, block, leaves⟩ :=
    fopen_leavesBlock inv mounted filesystem size opening succeeds
  have same := (performFileCalls_sameShape calls opened () used (.refl opened) between).1
  obtain ⟨live'', inv', member⟩ := leaves.stays same closing
  rintro ⟨live₁, inv₁, members⟩
  obtain ⟨allocation, member', here⟩ := inv'.live_iff inv₁ ⟨block, member, rfl⟩
  exact leaves.new allocation ((members allocation).mp member') here

end Leak

/-- Mount the volume with the file `F`, open it, ask for its size and close it: the number, the
result, and whether the heap is as it was before the call. -/
def openAndClose : K (Int × Int × Bool) := do
  let _ ← fat16Resolve diskstreamerRead
  let before ← Exec.read Kernel.heap
  let fd ← fopen diskstreamerRead [48, 58, 47, 70] [114]
  let _ ← performFileCalls [(fd, .fstat { flags := 0, filesize := 0 })]
  let res ← fclose fd
  let after ← Exec.read Kernel.heap
  pure (fd, res, decide (after.table.entries = before.table.entries))

theorem openAndClose_run : (openAndClose.run tableKernel).map Prod.fst = .ok (1, 0, false) := by
  decide +kernel

theorem openAndClose_parts : ∃ live start volume opened used closed,
    KernelInvariant wideHeapRegion live start ∧ RootLive live volume start ∧
      start.disk.filesystem = some .fat16 ∧
      start.fileDescriptors.length = peachosMaxFileDescriptors ∧
      (fopen diskstreamerRead [48, 58, 47, 70] [114]).run start = .ok (1, opened) ∧
      (performFileCalls [(1, .fstat { flags := 0, filesize := 0 })]).run opened = .ok ((), used) ∧
      (fclose 1).run used = .ok (0, closed) ∧ closed.heap ≠ start.heap := by
  obtain ⟨live, start, volume, mount, inv, root, mounted, empty⟩ := tableKernel_mounted
  obtain ⟨_, _, mount', evaluated⟩ := result_of_bind openAndClose_run
  rw [mount] at mount'
  cases mount'
  rw [Exec.bind_of_ok (Exec.run_read _ _)] at evaluated
  obtain ⟨fd, opened, opening, evaluated⟩ := result_of_bind evaluated
  obtain ⟨_, used, between, evaluated⟩ := result_of_bind evaluated
  obtain ⟨res, closed, closing, evaluated⟩ := result_of_bind evaluated
  rw [Exec.bind_of_ok (Exec.run_read _ _)] at evaluated
  have results := Except.ok.inj evaluated
  simp only [Prod.mk.injEq, decide_eq_false_iff_not] at results
  obtain ⟨rfl, rfl, different⟩ := results
  exact ⟨live, start, volume, opened, used, closed, inv, root, mounted,
    by rw [empty, List.length_replicate], opening, between, closing,
    fun same => different (by rw [same])⟩

/-- `F` is opened and closed. -/
theorem fopen_leaks_file : ∃ live start opened used closed,
    (fopen diskstreamerRead [48, 58, 47, 70] [114]).run start = .ok (1, opened) ∧
      (performFileCalls [(1, .fstat { flags := 0, filesize := 0 })]).run opened = .ok ((), used) ∧
      (fclose 1).run used = .ok (0, closed) ∧ ¬ SameLive wideHeapRegion live closed := by
  obtain ⟨live, start, volume, opened, used, closed, inv, root, mounted, size, opening, between,
    closing, _⟩ := openAndClose_parts
  exact ⟨live, start, opened, used, closed, opening, between, closing,
    fopen_leaks inv root mounted size opening (by decide) between closing⟩

/-- After that the heap is another one. -/
theorem openAndClose_leaked : ∃ live start volume opened used closed,
    KernelInvariant wideHeapRegion live start ∧ RootLive live volume start ∧
      start.disk.filesystem = some .fat16 ∧
      start.fileDescriptors.length = peachosMaxFileDescriptors ∧
      (fopen diskstreamerRead [48, 58, 47, 70] [114]).run start = .ok (1, opened) ∧
      (performFileCalls [(1, .fstat { flags := 0, filesize := 0 })]).run opened = .ok ((), used) ∧
      (fclose 1).run used = .ok (0, closed) ∧ ¬ SameLive wideHeapRegion live closed := by
  obtain ⟨live, start, volume, opened, used, closed, inv, root, mounted, size, opening, between,
    closing, different⟩ := openAndClose_parts
  refine ⟨live, start, volume, opened, used, closed, inv, root, mounted, size, opening, between,
    closing, fun ⟨live', inv', same⟩ => different (inv.heap.unique inv'.heap same)⟩

end Peachos
