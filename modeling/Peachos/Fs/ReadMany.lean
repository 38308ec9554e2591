import Peachos.Foundation.Ignores
import Peachos.Fs.FilePosition

/-! # Reading many elements

`fread` of many elements does what one `fread` for each of them does. The many calls keep the
position in the descriptor, the one call keeps it in a local variable; the reads of the filesystem
do not use it (`readElement_ignores`), so the runs go along with each other. A failure in the middle
leaves the position where it was before the one call (`fread_asOne`).
-/

namespace Peachos

open CInt

section Interior

variable (read : StreamRead)

/-- The end of `fat16_read`: the position moves when no element failed. -/
def endRead (descriptor nmemb : Nat) : Except Int Int → K Int
  | .error res => pure res
  | .ok offset => do
      let fatDesc ← load Obj.fatFileDescriptor? descriptor
      store descriptor (.fatFileDescriptor { fatDesc with pos := u32 offset })
      pure (i32 nmemb)

/-- `fat16_read` to the bytes of a buffer from `start` on. -/
def fat16ReadAt (descriptor size nmemb out start : Nat) : K Int := do
  let fatDesc ← load Obj.fatFileDescriptor? descriptor
  let descItem ← load Obj.fatItem? fatDesc.item
  let outcome ← fat16ReadLoop read descItem.pointer size out nmemb (i32 fatDesc.pos) start
  endRead descriptor nmemb outcome

/-- `fread` to `ptr + start`. -/
def freadAt (ptr start size nmemb : Nat) (fd : Int) : K Int :=
  if size = 0 ∨ nmemb = 0 ∨ fd < 1 then pure (-einvagr)
  else do
    let desc ← fileGetDescriptor fd
    if desc = 0 then pure (-einvagr)
    else do
      let value ← load Obj.fileDescriptor? desc
      let .fat16 ← theFilesystem value.filesystem
      theDisk value.disk
      fat16ReadAt read value.privateData size nmemb ptr start

/-- At the start of the buffer this is `fread`. -/
theorem freadAt_zero (ptr size nmemb : Nat) (fd : Int) :
    freadAt read ptr 0 size nmemb fd = fread read ptr size nmemb fd := rfl

/-- One call for each element, from element `i` on, with the results. -/
def freadEach (ptr size : Nat) (fd : Int) : (count i : Nat) → K (List Int)
  | 0, _ => pure []
  | count + 1, i => do
      let res ← freadAt read ptr (i * size) size 1 fd
      let rest ← freadEach ptr size fd count (i + 1)
      pure (res :: rest)

/-- One element of the loop of `fat16_read`. -/
def readElement (item size out : Nat) (offset : Int) (outOffset : Nat) : K Int := do
  let entry ← load Obj.bytes? item
  let cluster := fat16GetFirstCluster (FatDirectoryItem.decode entry)
  let (res, raw) ← fat16ReadInternal read (i32 cluster) offset (i32 size)
  writeBytes out outOffset raw
  pure res

variable {read}

theorem fat16ReadLoop_succ (item size out count : Nat) (offset : Int) (outOffset : Nat)
    (kernel : Kernel) :
    (fat16ReadLoop read item size out (count + 1) offset outOffset).run kernel =
      (readElement read item size out offset outOffset >>= fun res =>
        if res < 0 then pure (.error res)
        else fat16ReadLoop read item size out count (i32 (offset + size)) (outOffset + size)).run
          kernel := by
  rw [fat16ReadLoop, readElement, Exec.bind_assoc]
  refine Exec.bind_congr fun entry loaded _ => ?_
  rw [Exec.bind_assoc]
  refine Exec.bind_congr fun result middle _ => ?_
  rw [Exec.bind_assoc]
  exact Exec.bind_congr fun _ _ _ => (Exec.bind_of_ok (Exec.run_pure _ _)).symm

/-- The rest of the loop after its first elements. -/
theorem fat16ReadLoop_add {item size out rest : Nat} {last : Kernel}
    {offset' : Int} : ∀ {count : Nat} {offset : Int} {outOffset : Nat} {kernel : Kernel},
      (fat16ReadLoop read item size out count offset outOffset).run kernel =
        .ok (.ok offset', last) →
      (fat16ReadLoop read item size out (count + rest) offset outOffset).run kernel =
        (fat16ReadLoop read item size out rest offset' (outOffset + count * size)).run last := by
  intro count
  induction count with
  | zero =>
      intro offset outOffset kernel run
      cases run
      rw [Nat.zero_add, Nat.zero_mul, Nat.add_zero]
  | succ count ih =>
      intro offset outOffset kernel run
      rw [fat16ReadLoop_succ] at run
      rw [Nat.succ_add, fat16ReadLoop_succ]
      obtain ⟨res, middle, element, run⟩ := Exec.bind_eq_ok.mp run
      rw [Exec.bind_of_ok element]
      by_cases failed : res < 0
      · rw [if_pos failed] at run
        cases run
      · rw [if_neg failed] at run ⊢
        rw [ih run, Nat.succ_mul, Nat.add_assoc, Nat.add_comm size]

end Interior

section Position

/-- The kernel with another position in the descriptor. -/
def setPosition (ptrs : FilePointers) (pos : Nat) (kernel : Kernel) : Kernel :=
  kernel.setObj ptrs.descriptor (some (.fatFileDescriptor { item := ptrs.item, pos := pos }))

/-- The descriptor is there. -/
def HasDescriptor (ptrs : FilePointers) (kernel : Kernel) : Prop :=
  ∃ value, kernel.objs ptrs.descriptor = some (.fatFileDescriptor value)

/-- The program does not use the position in the descriptor. -/
abbrev IgnoresPosition {α : Type} (ptrs : FilePointers) (pos : Nat) (program : K α) : Prop :=
  Exec.Ignores (HasDescriptor ptrs) (setPosition ptrs pos) program

variable {α β : Type} {ptrs : FilePointers} {pos : Nat}

@[simp] theorem setPosition_setPosition (kernel : Kernel) (pos' : Nat) :
    setPosition ptrs pos (setPosition ptrs pos' kernel) = setPosition ptrs pos kernel :=
  Kernel.setObj_setObj ..

theorem load_ignoresPosition {view : Obj → Option α}
    (other : ∀ value, view (.fatFileDescriptor value) = none) (ptr : Nat) :
    IgnoresPosition ptrs pos (load view ptr) := by
  refine .demand fun kernel ⟨value, here⟩ => ?_
  by_cases same : ptr = ptrs.descriptor
  · rw [same, here, setPosition, Kernel.setObj_objs_self, Option.bind_some, Option.bind_some, other,
      other]
  · rw [setPosition, Kernel.setObj_objs_of_ne _ _ same]

/-- What follows a load of something else is run with a pointer to something else. -/
theorem load_bind_ignoresPosition {view : Obj → Option α}
    (other : ∀ value, view (.fatFileDescriptor value) = none) {ptr : Nat} {next : α → K β}
    (rest : ptr ≠ ptrs.descriptor → ∀ value, IgnoresPosition ptrs pos (next value)) :
    IgnoresPosition ptrs pos (load view ptr >>= next) := by
  by_cases same : ptr = ptrs.descriptor
  · intro kernel here
    obtain ⟨value, present⟩ := here
    have missing : ∀ kernel : Kernel, HasDescriptor ptrs kernel →
        (load view ptr).run kernel = .error (.badPointer ptr) := by
      rintro kernel ⟨value, present⟩
      simp [load, Exec.demand, same, present, other]
    rw [Exec.bind_of_error (missing kernel ⟨value, present⟩),
      Exec.bind_of_error (missing (setPosition ptrs pos kernel) ⟨_, Kernel.setObj_objs_self ..⟩)]
    refine ⟨rfl, fun _ _ run => ?_⟩
    cases run
  · exact .bind (load_ignoresPosition other ptr) (rest same)

theorem store_ignoresPosition {ptr : Nat} (different : ptr ≠ ptrs.descriptor) (contents : Obj) :
    IgnoresPosition ptrs pos (store ptr contents) := by
  rintro kernel ⟨value, here⟩
  have there : ((setPosition ptrs pos kernel).objs ptr) = kernel.objs ptr :=
    Kernel.setObj_objs_of_ne _ _ different
  refine ⟨?_, ?_⟩
  · by_cases live : (kernel.objs ptr).isSome
    · rw [store_of_live live, store_of_live (there ▸ live)]
      have swapped : (setPosition ptrs pos kernel).setObj ptr (some contents) =
          setPosition ptrs pos (kernel.setObj ptr (some contents)) := by
        simp only [setPosition, Kernel.setObj, Function.update_comm different]
      rw [swapped]
      rfl
    · simp [store, there, live, Except.map]
  · intro done final run
    obtain ⟨_, rfl⟩ := store_eq_ok.mp run
    exact ⟨value, (Kernel.setObj_objs_of_ne _ _ different.symm).trans here⟩

theorem readDisk_ignoresPosition : IgnoresPosition ptrs pos (Exec.read Kernel.disk : K Disk) :=
  .read fun _ => rfl

theorem loadPrivate_ignoresPosition : IgnoresPosition ptrs pos loadPrivate :=
  .bind readDisk_ignoresPosition fun _ => load_ignoresPosition (fun _ => rfl) _

theorem diskstreamerSeek_ignoresPosition (stream : Nat) (target : Int) :
    IgnoresPosition ptrs pos (diskstreamerSeek stream target) :=
  load_bind_ignoresPosition (fun _ => rfl) fun different _ =>
    .bind (store_ignoresPosition different _) fun _ => .pure _

theorem copyBuffer_ignoresPosition (buf : List UInt8) (count : Nat) : ∀ index,
    IgnoresPosition ptrs pos (copyBuffer buf count index) := by
  induction count with
  | zero => exact fun _ => .pure _
  | succ count ih =>
      intro index
      refine .bind ?_ fun _ => .bind (ih _) fun _ => .pure _
      exact .demand fun _ _ => rfl

theorem diskReadBlock_ignoresPosition (idisk : DiskPtr) (lba : Nat) (total : Int) :
    IgnoresPosition ptrs pos (diskReadBlock idisk lba total) :=
  .ite (.pure _) (.bind (.read fun _ => rfl) fun _ => .pure _)

theorem diskstreamerReadCalls_ignoresPosition (stream calls : Nat) : ∀ total,
    IgnoresPosition ptrs pos (diskstreamerReadCalls stream calls total) := by
  induction calls with
  | zero => exact fun _ => .fault _
  | succ calls ih =>
      intro total
      refine load_bind_ignoresPosition (fun _ => rfl) fun different value => ?_
      refine .bind (diskReadBlock_ignoresPosition _ _ _) fun result => ?_
      refine .ite (.pure _) ?_
      refine .bind (copyBuffer_ignoresPosition _ _ _) fun copied => ?_
      refine .bind (load_ignoresPosition (fun _ => rfl) _) fun value' => ?_
      refine .bind (store_ignoresPosition different _) fun _ => ?_
      exact .ite (.bind (ih _) fun _ => .pure _) (.pure _)

theorem diskstreamerRead_ignoresPosition (stream : Nat) (total : Int) :
    IgnoresPosition ptrs pos (diskstreamerRead stream total) :=
  diskstreamerReadCalls_ignoresPosition _ _ _

theorem divide_ignoresPosition (dividend divisor : Int) :
    IgnoresPosition ptrs pos (divide dividend divisor) :=
  .ite (.fault _) (.pure _)

theorem remainder_ignoresPosition (dividend divisor : Int) :
    IgnoresPosition ptrs pos (remainder dividend divisor) :=
  .ite (.fault _) (.pure _)

theorem fat16GetFatEntry_ignoresPosition (cluster : Int) :
    IgnoresPosition ptrs pos (fat16GetFatEntry diskstreamerRead cluster) := by
  refine .bind loadPrivate_ignoresPosition fun volume => ?_
  refine .bind readDisk_ignoresPosition fun disk => .ite (.pure _) ?_
  refine .bind (diskstreamerSeek_ignoresPosition _ _) fun res => .ite (.pure _) ?_
  exact .bind (diskstreamerRead_ignoresPosition _ _) fun _ => .ite (.pure _) (.pure _)

theorem fat16GetClusterLoop_ignoresPosition (ahead : Nat) : ∀ cluster,
    IgnoresPosition ptrs pos (fat16GetClusterLoop diskstreamerRead ahead cluster) := by
  induction ahead with
  | zero => exact fun _ => .pure _
  | succ ahead ih =>
      exact fun cluster => .bind (fat16GetFatEntry_ignoresPosition cluster) fun entry =>
        .ite (.pure _) (ih entry)

theorem fat16ReadInternalCalls_ignoresPosition (stream : Nat) (cluster : Int) (calls : Nat) :
    ∀ offset total, IgnoresPosition ptrs pos
      (fat16ReadInternalCalls diskstreamerRead stream cluster calls offset total) := by
  induction calls with
  | zero => exact fun _ _ => .fault _
  | succ calls ih =>
      intro offset total
      refine .bind loadPrivate_ignoresPosition fun volume => ?_
      refine .bind readDisk_ignoresPosition fun disk => ?_
      have found : IgnoresPosition ptrs pos
          (fat16GetClusterForOffset diskstreamerRead cluster offset) :=
        .bind loadPrivate_ignoresPosition fun _ => .bind readDisk_ignoresPosition fun _ =>
          .bind (divide_ignoresPosition _ _) fun _ => fat16GetClusterLoop_ignoresPosition _ _
      refine .bind found fun clusterToUse => .ite (.pure _) ?_
      refine .bind (remainder_ignoresPosition _ _) fun _ => ?_
      refine .bind (diskstreamerSeek_ignoresPosition _ _) fun _ => .ite (.pure _) ?_
      refine .bind (diskstreamerRead_ignoresPosition _ _) fun _ => .ite (.pure _) ?_
      exact .ite (.bind (ih _ _) fun _ => .pure _) (.pure _)

theorem writeBytes_ignoresPosition (ptr offset : Nat) (raw : List UInt8) :
    IgnoresPosition ptrs pos (writeBytes ptr offset raw) :=
  load_bind_ignoresPosition (fun _ => rfl) fun different _ =>
    .ite (store_ignoresPosition different _) (.fault _)

/-- **One element** is read without the position in the descriptor. -/
theorem readElement_ignores (item size out : Nat) (offset : Int) (outOffset : Nat) :
    IgnoresPosition ptrs pos (readElement diskstreamerRead item size out offset outOffset) := by
  have internal : ∀ cluster, IgnoresPosition ptrs pos
      (fat16ReadInternal diskstreamerRead cluster offset (i32 size)) := fun _ =>
    .bind loadPrivate_ignoresPosition fun _ => fat16ReadInternalCalls_ignoresPosition _ _ _ _ _
  refine .bind (load_ignoresPosition (fun _ => rfl) _) fun entry => ?_
  exact .bind (internal _) fun _ => .bind (writeBytes_ignoresPosition _ _ _) fun _ => .pure _

end Position

section Calls

variable {kernel next : Kernel} {fd : Nat} {ptrs : FilePointers} {raw : List UInt8} {pos : Nat}

theorem OpenFile.setPosition_self (file : OpenFile kernel fd ptrs raw pos) :
    setPosition ptrs pos kernel = kernel :=
  Kernel.setObj_eq_self file.descriptor

theorem OpenFile.atPosition (file : OpenFile kernel fd ptrs raw pos) (position : Nat) :
    OpenFile (setPosition ptrs position kernel) fd ptrs raw position :=
  file.sought position

theorem OpenFile.hasDescriptor (file : OpenFile kernel fd ptrs raw pos) :
    HasDescriptor ptrs kernel := ⟨_, file.descriptor⟩

/-- A write leaves the file open, also where it changes the directory entry. -/
theorem OpenFile.written (file : OpenFile kernel fd ptrs raw pos) {buf start : Nat}
    {out : List UInt8} (wrote : (writeBytes buf start out).run kernel = .ok ((), next)) :
    ∃ raw', OpenFile next fd ptrs raw' pos := by
  obtain ⟨contents, buffer, _, rfl⟩ := writeBytes_eq_ok wrote
  by_cases same : buf = ptrs.entry
  · have other : ∀ {ptr contents'}, kernel.objs ptr = some contents' →
        contents'.bytes? = none → ptr ≠ ptrs.entry := by
      rintro ptr contents' present untyped rfl
      rw [← same, buffer] at present
      cases present
      cases untyped
    subst same
    exact ⟨_, {
      positive := file.positive
      inTable := file.inTable
      slot := file.slot
      descNotNull := file.descNotNull
      desc := (Kernel.setObj_objs_of_ne _ _ (other file.desc rfl)).trans file.desc
      descriptor :=
        (Kernel.setObj_objs_of_ne _ _ (other file.descriptor rfl)).trans file.descriptor
      item := (Kernel.setObj_objs_of_ne _ _ (other file.item rfl)).trans file.item
      entry := Kernel.setObj_objs_self .. }⟩
  · exact ⟨raw, file.setBuffer buffer same _⟩

/-- The file is open after an element was read, at the position before. -/
theorem readElement_completed (file : OpenFile kernel fd ptrs raw pos) {size buf start : Nat}
    {offset res : Int}
    (run : (readElement diskstreamerRead ptrs.entry size buf offset start).run kernel =
      .ok (res, next)) : ∃ raw', OpenFile next fd ptrs raw' pos := by
  obtain ⟨entry, loaded, here, run⟩ := Exec.bind_eq_ok.mp run
  obtain ⟨_, _, rfl⟩ := load_eq_ok.mp here
  obtain ⟨⟨res', out⟩, streamed, delivered, run⟩ := Exec.bind_eq_ok.mp run
  have only := (fat16ReadInternal_streams diskstreamerRead_readsStreams _ _ _ kernel _ streamed
    (.refl kernel) delivered).1
  obtain ⟨_, wrote, write, run⟩ := Exec.bind_eq_ok.mp run
  cases run
  exact (file.of_onlyStreams only).written write

theorem endRead_run (file : OpenFile kernel fd ptrs raw pos) (nmemb : Nat) (offset : Int) :
    (endRead ptrs.descriptor nmemb (.ok offset)).run kernel =
      .ok (i32 nmemb, setPosition ptrs (u32 offset) kernel) := by
  rw [endRead, Exec.bind_of_ok file.load_descriptor,
    Exec.bind_of_ok (store_of_live (by rw [file.descriptor]; rfl)), Exec.run_pure]
  rfl

/-- A call is the loop of the filesystem with its end. -/
theorem freadAt_run (file : OpenFile kernel fd ptrs raw pos) {read : StreamRead}
    {buf start size nmemb : Nat} (positive : 1 ≤ size) (several : 1 ≤ nmemb) :
    (freadAt read buf start size nmemb fd).run kernel =
      (fat16ReadLoop read ptrs.entry size buf nmemb (i32 pos) start >>=
        endRead ptrs.descriptor nmemb).run kernel := by
  have valid : ¬ (size = 0 ∨ nmemb = 0 ∨ (fd : Int) < 1) := by
    have open' := file.positive
    omega
  rw [freadAt, if_neg valid, Exec.bind_of_ok (fileGetDescriptor_run file),
    if_neg file.descNotNull, Exec.bind_of_ok file.load_desc, Exec.bind_of_ok (theFilesystem_run _)]
  dsimp only
  rw [theDisk, if_pos rfl, Exec.bind_of_ok (Exec.run_pure _ _), fat16ReadAt,
    Exec.bind_of_ok file.load_descriptor, Exec.bind_of_ok file.load_item]

/-- **A call for one element**, from any position: the element is read without regard to the
position in the descriptor, and the position moves when it could be read. -/
theorem freadAt_one (file : OpenFile kernel fd ptrs raw pos) {buf start size position : Nat}
    (positive : 1 ≤ size) {code : Int}
    (call : (freadAt diskstreamerRead buf start size 1 fd).run
      (setPosition ptrs position kernel) = .ok (code, next)) :
    ∃ res last raw', OpenFile last fd ptrs raw' pos ∧
      (readElement diskstreamerRead ptrs.entry size buf (i32 position) start).run kernel =
        .ok (res, last) ∧
      (res < 0 ∧ code = res ∨
        0 ≤ res ∧ code = 1 ∧
          next = setPosition ptrs (u32 (i32 (i32 position + size))) last) := by
  rw [freadAt_run (file.atPosition position) positive le_rfl] at call
  obtain ⟨outcome, read, loop, call⟩ := Exec.bind_eq_ok.mp call
  rw [fat16ReadLoop_succ] at loop
  obtain ⟨res, found, element, loop⟩ := Exec.bind_eq_ok.mp loop
  obtain ⟨last, element', rfl, _⟩ :=
    (readElement_ignores ptrs.entry size buf (i32 position) start).run_of_ok file.hasDescriptor
      element
  obtain ⟨raw', last_open⟩ := readElement_completed file element'
  refine ⟨res, last, raw', last_open, element', ?_⟩
  by_cases failed : res < 0
  · rw [if_pos failed] at loop
    cases loop
    cases call
    exact .inl ⟨failed, rfl⟩
  · rw [if_neg failed] at loop
    cases loop
    rw [endRead_run (last_open.atPosition position)] at call
    cases call
    exact .inr ⟨not_lt.mp failed, rfl, setPosition_setPosition ..⟩

theorem i32_u32_i32 (value : Int) : i32 (u32 (i32 value)) = i32 value := by
  unfold i32 u32
  omega

/-- **Many calls.** The loop of one call goes along with them, and keeps its position to itself. -/
theorem freadEach_loop {buf size : Nat} (positive : 1 ≤ size) (count : Nat) :
    ∀ {i position : Nat} {kernel : Kernel} {raw : List UInt8},
      OpenFile kernel fd ptrs raw pos →
      (freadEach diskstreamerRead buf size fd count i).run (setPosition ptrs position kernel) =
        .ok (List.replicate count 1, next) →
      ∃ offset reached last raw', OpenFile last fd ptrs raw' pos ∧
        (fat16ReadLoop diskstreamerRead ptrs.entry size buf count (i32 position) (i * size)).run
          kernel = .ok (.ok offset, last) ∧
        next = setPosition ptrs reached last ∧ i32 reached = offset ∧
        (reached = u32 offset ∨ count = 0 ∧ reached = position) := by
  induction count with
  | zero =>
      intro i position kernel raw file calls
      cases calls
      exact ⟨_, position, kernel, raw, file, rfl, rfl, rfl, .inr ⟨rfl, rfl⟩⟩
  | succ count ih =>
      intro i position kernel raw file calls
      obtain ⟨code, middle, call, calls⟩ := Exec.bind_eq_ok.mp calls
      obtain ⟨codes, final, calls, same⟩ := Exec.bind_eq_ok.mp calls
      obtain ⟨res, last, raw', file', element, outcome⟩ := freadAt_one file positive call
      cases same
      rcases outcome with ⟨failed, rfl⟩ | ⟨succeeded, _, rfl⟩
      · exact absurd failed (by decide)
      obtain ⟨offset, reached, last', raw'', file'', loop, at_, moved, counted⟩ := ih file' calls
      rw [i32_u32_i32, Nat.succ_mul] at loop
      refine ⟨offset, reached, last', raw'', file'', ?_, at_, moved, .inl ?_⟩
      · rw [fat16ReadLoop_succ, Exec.bind_of_ok element, if_neg (not_lt.mpr succeeded)]
        exact loop
      rcases counted with counted | ⟨_, same⟩
      · exact counted
      · rw [same] at moved ⊢
        exact congrArg u32 ((i32_u32_i32 _).symm.trans moved)

/-- What one call of `fread` for `nmemb` elements has to do with a call for each of them. -/
structure ReadsAsOne (kernel : Kernel) (ptrs : FilePointers) (fd : Nat) (buf size nmemb : Nat) :
    Prop where
  /-- When all calls return 1, the one call returns their number and does what they do. -/
  succeeds : ∀ next, (freadEach diskstreamerRead buf size fd nmemb 0).run kernel =
      .ok (List.replicate nmemb 1, next) →
    (fread diskstreamerRead buf size nmemb fd).run kernel = .ok ((nmemb : Int), next)
  /-- When a call is the first to return something else, the one call returns that. -/
  fails : ∀ i < nmemb, ∀ middle code after,
    (freadEach diskstreamerRead buf size fd i 0).run kernel = .ok (List.replicate i 1, middle) →
    (freadAt diskstreamerRead buf (i * size) size 1 fd).run middle = .ok (code, after) →
    code ≠ 1 → code < 0 ∧ ∃ next,
      (fread diskstreamerRead buf size nmemb fd).run kernel = .ok (code, next) ∧
        filePosition ptrs next = filePosition ptrs kernel

/-- **Reading many elements.** For every open regular file, position, element size and count, a
call of `fread` for all elements does what a call for each of them does, the memory included. When
one of these fails, it returns a negative code and leaves the position. -/
theorem fread_asOne (file : OpenFile kernel fd ptrs raw pos) {size nmemb : Nat}
    (positive : 1 ≤ size) (several : 1 ≤ nmemb) (count : nmemb < 2147483648) (buf : Nat) :
    ReadsAsOne kernel ptrs fd buf size nmemb := by
  have one : (fread diskstreamerRead buf size nmemb fd).run kernel =
      (fat16ReadLoop diskstreamerRead ptrs.entry size buf nmemb (i32 pos) 0 >>=
        endRead ptrs.descriptor nmemb).run kernel := by
    rw [← freadAt_zero]
    exact freadAt_run file positive several
  constructor
  · intro next calls
    rw [← file.setPosition_self] at calls
    obtain ⟨offset, reached, last, raw', file', loop, rfl, _, counted⟩ :=
      freadEach_loop positive nmemb file calls
    rw [Nat.zero_mul] at loop
    rcases counted with rfl | ⟨none, _⟩
    · rw [one, Exec.bind_of_ok loop, endRead_run file', i32_natCast count]
    · omega
  · intro i inside middle code after calls call failed
    rw [← file.setPosition_self] at calls
    obtain ⟨offset, reached, last, raw', file', loop, rfl, moved, _⟩ :=
      freadEach_loop positive i file calls
    obtain ⟨res, stopped, raw'', file'', element, outcome⟩ := freadAt_one file' positive call
    rcases outcome with ⟨negative, rfl⟩ | ⟨_, rfl, _⟩
    · refine ⟨negative, stopped, ?_, ?_⟩
      · obtain ⟨rest, rfl⟩ := Nat.exists_eq_add_of_lt inside
        have looped : (fat16ReadLoop diskstreamerRead ptrs.entry size buf (i + rest + 1) (i32 pos)
            0).run kernel = .ok (.error code, stopped) := by
          rw [Nat.add_assoc, ← Nat.zero_mul size, fat16ReadLoop_add loop, fat16ReadLoop_succ,
            Nat.zero_mul, Nat.zero_add, ← moved, Exec.bind_of_ok element, if_pos negative,
            Exec.run_pure]
        rw [one, Exec.bind_of_ok looped]
        rfl
      · rw [file''.filePosition_eq, file.filePosition_eq]
    · exact absurd rfl failed

/-- Three elements of two bytes, read from the start of a file. -/
theorem fread_asOne_fragmented :
    ReadsAsOne fragmentedKernel ⟨16384, 20480, 24576, 28672⟩ 1 32768 2 3 :=
  fread_asOne fragmentedKernel_open (by decide) (by decide) (by decide) 32768

end Calls

end Peachos
