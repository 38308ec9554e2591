import Peachos.Fs.Growth
import Peachos.Fs.ReadTermination
import Peachos.Fs.SeekRead

/-! # The position of an open file

`fseek` compares its own argument with the size of the file and `fread` compares nothing. The
position stays within the file in every run whose relative seeks land in it and whose reads end in
it, or fail before the piece that leaves it.
-/

namespace Peachos

open CInt Window Exec

section Lengths

variable {volume : FatPrivate} {kernel next : Kernel} {read : StreamRead}

theorem copyBuffer_length (buf : List UInt8) (count : Nat) (index : Int) :
    Ensures (fun _ : Kernel => True) (copyBuffer buf count index)
      fun copied => copied.length = count := by
  induction count generalizing index with
  | zero => exact .pure rfl
  | succ count ih =>
      have byte : Ensures (fun _ : Kernel => True) (readBuffer buf index) fun _ => True :=
        .demand fun _ _ _ _ => trivial
      refine .bind byte fun _ _ => .bind (ih (index + 1)) fun rest length => .pure ?_
      rw [List.length_cons, length]

/-- The reader delivers no more than it was asked for. -/
def ReadsAtMost (read : StreamRead) : Prop :=
  ∀ stream total, Ensures (fun _ : Kernel => True) (read stream total)
    fun result => result.2.length ≤ total.toNat

theorem diskstreamerRead_readsAtMost : ReadsAtMost diskstreamerRead := by
  intro stream total
  have calls : ∀ (calls : Nat) (total : Int), Ensures (fun _ : Kernel => True)
      (diskstreamerReadCalls stream calls total) fun result => result.2.length ≤ total.toNat := by
    intro calls
    induction calls with
    | zero => exact fun _ => .fault _
    | succ calls ih =>
        intro total
        unfold diskstreamerReadCalls
        have stream' : Ensures (fun _ : Kernel => True) (load Obj.diskStream? stream)
            fun _ => True := .demand fun _ _ _ _ => trivial
        refine .bind stream' fun value _ => .bind (diskReadBlock_ensures _ _ _) fun sector _ => ?_
        refine .ite (fun _ => .pure (Nat.zero_le _)) fun _ => ?_
        refine .bind (copyBuffer_length _ _ _) fun copied length => ?_
        refine loadStore_ensures (fun _ _ _ _ _ _ => trivial) fun value => ?_
        refine .ite (fun more => ?_) fun whole => .pure ?_
        · refine .bind (ih _) fun rest short => .pure ?_
          rw [if_pos more] at length
          unfold peachosSectorSize at *
          rw [List.length_append, length]
          omega
        · rw [if_neg whole] at length
          exact length.le
  exact calls _ total

theorem VolumeAt.of_onlyStreams (at_ : VolumeAt volume kernel) (only : OnlyStreams kernel next) :
    VolumeAt volume next where
  sectorSize := by
    rw [only.disk]
    exact at_.sectorSize
  fsPrivate := by
    rw [only.disk]
    exact only.kept at_.fsPrivate rfl

/-- A completed division was by a number that is not zero. -/
theorem remainder_eq_ok {dividend divisor result : Int}
    (run : (remainder dividend divisor).run kernel = .ok (result, next)) :
    divisor ≠ 0 ∧ next = kernel := by
  rw [remainder] at run
  by_cases zero : divisor = 0
  · rw [if_pos zero, run_fault] at run
    cases run
  · rw [if_neg zero] at run
    cases run
    exact ⟨zero, rfl⟩

/-- One call of the recursion: the walk fails, or the piece fails, or the rest of the request is
read by the next call. -/
theorem fat16ReadInternalCalls_completed (reads : ReadsStreams read) (within : ReadsAtMost read)
    (at_ : VolumeAt volume kernel) (byte : volume.header.sectorsPerCluster < 256) {stream : Nat}
    {cluster offset total : Int} {calls : Nat} {res : Int} {out : List UInt8}
    (run : (fat16ReadInternalCalls read stream cluster (calls + 1) offset total).run kernel =
      .ok ((res, out), next)) :
    ∃ clusterToUse walked, (fat16GetClusterForOffset read cluster offset).run kernel =
        .ok (clusterToUse, walked) ∧ OnlyStreams kernel walked ∧
      (clusterToUse < 0 ∧ res = clusterToUse ∧ out = [] ∨ 0 ≤ clusterToUse ∧
        (out.length ≤ (min total (clusterBytes volume)).toNat ∧
            (¬ OnDisk kernel stream ∨ total ≤ clusterBytes volume) ∨
          ∃ middle piece rest, OnlyStreams kernel middle ∧ out = piece ++ rest ∧
            piece.length ≤ clusterBytes volume ∧ (clusterBytes volume : Int) < total ∧
            (fat16ReadInternalCalls read stream cluster calls
              (i32 (offset + clusterBytes volume)) (total - clusterBytes volume)).run middle =
                .ok ((res, rest), next))) := by
  have size : sizeOfClusterBytes volume kernel.disk = clusterBytes volume := by
    unfold sizeOfClusterBytes clusterBytes
    rw [at_.sectorSize]
    unfold peachosSectorSize i32
    omega
  rw [fat16ReadInternalCalls, bind_of_ok at_.loadPrivate_run, bind_of_ok (run_read _ _)] at run
  dsimp only at run
  rw [size] at run
  obtain ⟨clusterToUse, walked, walk, run⟩ := bind_eq_ok.mp run
  obtain ⟨only, _⟩ :=
    fat16GetClusterForOffset_streams reads cluster offset kernel _ walked (.refl kernel) walk
  refine ⟨clusterToUse, walked, walk, only, ?_⟩
  by_cases failed : clusterToUse < 0
  · rw [if_pos failed] at run
    cases run
    exact .inl ⟨failed, rfl, rfl⟩
  · rw [if_neg failed] at run
    refine .inr ⟨not_lt.mp failed, ?_⟩
    obtain ⟨offsetFromCluster, same, divided, run⟩ := bind_eq_ok.mp run
    rw [(remainder_eq_ok divided).2] at run
    obtain ⟨sought, middle, seek, run⟩ := bind_eq_ok.mp run
    obtain ⟨only', rfl⟩ := diskstreamerSeek_streams _ _ walked _ middle only seek
    rw [if_neg (not_not.mpr rfl)] at run
    obtain ⟨⟨res', piece⟩, streamed, delivered, run⟩ := bind_eq_ok.mp run
    have only'' := (reads.moves kernel _ _ middle _ streamed only' delivered).1
    have short := (within _ _ middle _ streamed trivial delivered).2
    have amount : (if total > (clusterBytes volume : Int) then (clusterBytes volume : Int)
        else total) = min total (clusterBytes volume) := by
      split <;> omega
    rw [amount] at short run
    dsimp only at short run
    by_cases ended : res' ≠ peachosAllOk
    · rw [if_pos ended] at run
      cases run
      refine .inl ⟨short, .inl fun on => ended ?_⟩
      exact (reads.succeeds _ _ middle _ next (on.of_onlyStreams only') delivered).2
    · rw [if_neg ended] at run
      by_cases more : total - min total (clusterBytes volume) > 0
      · have full : min total (clusterBytes volume : Int) = clusterBytes volume := by omega
        rw [if_pos more, full] at run
        obtain ⟨⟨res'', rest⟩, final, read', done⟩ := bind_eq_ok.mp run
        cases done
        rw [full, Int.toNat_natCast] at short
        exact .inr ⟨streamed, piece, rest, only'', rfl, short, by omega, read'⟩
      · rw [if_neg more] at run
        cases run
        exact .inl ⟨short, .inr (by omega)⟩

/-- The recursion delivers no more than it was asked for. -/
theorem fat16ReadInternalCalls_length (reads : ReadsStreams read) (within : ReadsAtMost read)
    (byte : volume.header.sectorsPerCluster < 256) {stream : Nat} {cluster : Int} :
    ∀ (calls : Nat) (kernel : Kernel) (offset total res : Int) (out : List UInt8),
      VolumeAt volume kernel →
      (fat16ReadInternalCalls read stream cluster calls offset total).run kernel =
        .ok ((res, out), next) → out.length ≤ total.toNat := by
  intro calls
  induction calls with
  | zero => exact fun _ _ _ _ _ _ run => nomatch run
  | succ calls ih =>
      intro kernel offset total res out at_ run
      obtain ⟨_, _, _, _, outcome⟩ := fat16ReadInternalCalls_completed reads within at_ byte run
      rcases outcome with ⟨_, _, rfl⟩ | ⟨_, ⟨short, _⟩ | ⟨middle, piece, rest, only, rfl, short,
        more, run'⟩⟩
      · exact Nat.zero_le _
      · omega
      · have later := ih middle _ _ _ _ (at_.of_onlyStreams only) run'
        rw [List.length_append]
        omega

variable {request : Nat → Nat → Prop}

/-- A request whose walk is rejected at one of its pieces fails, and delivers the pieces before it
at most. -/
theorem fat16ReadInternalCalls_rejectedAt (delivers : Delivers read request)
    (entries : EntryRequests request) (reads : ReadsStreams read) (within : ReadsAtMost read)
    {first : Nat} (small : first < 65536) :
    ∀ (calls piece : Nat) (kernel : Kernel) (offset total : Nat) (res : Int) (out : List UInt8),
      Mounted volume kernel → (piece = 0 ∨ piece * clusterBytes volume < total) →
      offset + piece * clusterBytes volume < 2147483648 →
      ¬ Accepted volume kernel.drive first (offset / clusterBytes volume + piece) →
      (fat16ReadInternalCalls read volume.clusterReadStream first calls offset total).run kernel =
        .ok ((res, out), next) → res < 0 ∧ out.length ≤ piece * clusterBytes volume := by
  intro calls
  induction calls with
  | zero => exact fun _ _ _ _ _ _ _ _ _ _ run => nomatch run
  | succ calls ih =>
      intro piece kernel offset total res out mounted inside below rejected run
      have positive := clusterBytes_positive mounted
      have at_ : VolumeAt volume kernel := ⟨mounted.sectorSize, mounted.fsPrivate⟩
      obtain ⟨clusterToUse, walked, walk, only, outcome⟩ :=
        fat16ReadInternalCalls_completed reads within at_ mounted.sectorsPerCluster run
      obtain ⟨walked', walk', _⟩ :=
        fat16GetClusterForOffset_run delivers entries mounted small offset
      rw [walk'] at walk
      injection walk with walk
      obtain ⟨found, _⟩ := Prod.mk.inj walk
      by_cases accepted : Accepted volume kernel.drive first (offset / clusterBytes volume)
      · rw [if_pos accepted] at found
        cases piece with
        | zero => exact absurd accepted rejected
        | succ piece =>
            have inside' : (piece + 1) * clusterBytes volume < total :=
              inside.resolve_left (Nat.succ_ne_zero _)
            rw [Nat.succ_mul] at inside' below
            rcases outcome with ⟨negative, _⟩ | ⟨_, ⟨short, failed⟩ | ⟨middle, first', rest, only',
              rfl, short, more, run'⟩⟩
            · omega
            · rcases failed with off | whole
              · exact absurd mounted.clusterReadStream off
              · omega
            · rw [i32_of_range (by omega) (by omega),
                show (offset : Int) + clusterBytes volume = (offset + clusterBytes volume : Nat) by
                  omega,
                show (total : Int) - clusterBytes volume = (total - clusterBytes volume : Nat) by
                  omega] at run'
              obtain ⟨negative, short'⟩ := ih piece middle _ _ res rest
                (mounted.of_onlyStreams only') (.inr (by omega)) (by omega) (by
                  rw [only'.drive, Nat.add_div_right _ positive, Nat.succ_add_eq_add_succ]
                  exact rejected) run'
              refine ⟨negative, ?_⟩
              rw [List.length_append, Nat.succ_mul]
              omega
      · rw [if_neg accepted] at found
        rcases outcome with ⟨negative, rfl, rfl⟩ | ⟨nonnegative, _⟩
        · exact ⟨negative, Nat.zero_le _⟩
        · rw [← found] at nonnegative
          exact absurd nonnegative (by decide)

end Lengths

section Buffers

/-- The bytes from `limit` on are the same. -/
def Untouched (limit : Nat) (before after : List UInt8) : Prop :=
  after.length = before.length ∧ after.drop limit = before.drop limit

theorem Untouched.refl (limit : Nat) (contents : List UInt8) :
    Untouched limit contents contents := ⟨rfl, rfl⟩

theorem Untouched.trans {limit : Nat} {first second third : List UInt8}
    (before : Untouched limit first second) (after : Untouched limit second third) :
    Untouched limit first third :=
  ⟨after.1.trans before.1, after.2.trans before.2⟩

/-- A write that ends before the limit, and one of nothing. -/
theorem Untouched.write {limit offset : Nat} {contents out : List UInt8}
    (ends : out.length = 0 ∨ offset + out.length ≤ limit)
    (fits : offset + out.length ≤ contents.length) : Untouched limit contents
      (contents.take offset ++ out ++ contents.drop (offset + out.length)) := by
  have front : (contents.take offset ++ out).length = offset + out.length := by
    rw [List.length_append, List.length_take]
    omega
  refine ⟨by rw [List.length_append, front, List.length_drop]; omega, ?_⟩
  rcases ends with nothing | ends
  · rw [List.length_eq_zero_iff.mp nothing, List.append_nil, List.length_nil, Nat.add_zero,
      List.take_append_drop]
  · rw [List.drop_append, List.drop_eq_nil_of_le (by omega), List.nil_append, front,
      List.drop_drop]
    congr 1
    omega

variable {kernel next : Kernel} {fd : Nat} {ptrs : FilePointers} {raw : List UInt8} {pos : Nat}

/-- A buffer of the caller can be written. -/
theorem OpenFile.setBuffer (file : OpenFile kernel fd ptrs raw pos) {buf : Nat}
    {contents : List UInt8} (buffer : kernel.objs buf = some (.bytes contents))
    (apart : buf ≠ ptrs.entry) (after : List UInt8) :
    OpenFile (kernel.setObj buf (some (.bytes after))) fd ptrs raw pos where
  positive := file.positive
  inTable := file.inTable
  slot := file.slot
  descNotNull := file.descNotNull
  desc := (Kernel.setObj_objs_of_ne _ _ (Kernel.ne_of_objs file.desc buffer nofun)).trans file.desc
  descriptor := (Kernel.setObj_objs_of_ne _ _
    (Kernel.ne_of_objs file.descriptor buffer nofun)).trans file.descriptor
  item := (Kernel.setObj_objs_of_ne _ _ (Kernel.ne_of_objs file.item buffer nofun)).trans file.item
  entry := (Kernel.setObj_objs_of_ne _ _ apart.symm).trans file.entry

/-- A state during a read into `buf`: what the buffer held from `limit` on is still there. -/
structure Reading (volume : FatPrivate) (fd : Nat) (ptrs : FilePointers) (raw : List UInt8)
    (pos buf limit : Nat) (contents : List UInt8) (kernel : Kernel) : Prop where
  file : OpenFile kernel fd ptrs raw pos
  volumeAt : VolumeAt volume kernel
  buffer : ∃ filled, kernel.objs buf = some (.bytes filled) ∧ Untouched limit contents filled

variable {volume : FatPrivate} {read : StreamRead} {buf limit : Nat} {contents : List UInt8}

/-- One element of the loop: the recursion reads, the bytes are written, and the loop stops or
goes on. -/
theorem fat16ReadLoop_step (reads : ReadsStreams read) (apart : buf ≠ ptrs.entry)
    (reading : Reading volume fd ptrs raw pos buf limit contents kernel)
    {size count : Nat} {offset : Int} {outOffset : Nat} {outcome : Except Int Int}
    (run : (fat16ReadLoop read ptrs.entry size buf (count + 1) offset outOffset).run kernel =
      .ok (outcome, next)) :
    ∃ res out streamed, (fat16ReadInternalCalls read volume.clusterReadStream
        (i32 (firstCluster raw)) ((i32 size).toNat + 1) offset (i32 size)).run kernel =
          .ok ((res, out), streamed) ∧
      ((out.length = 0 ∨ outOffset + out.length ≤ limit) → ∃ wrote,
        Reading volume fd ptrs raw pos buf limit contents wrote ∧ wrote.drive = kernel.drive ∧
        (Mounted volume kernel → Mounted volume wrote) ∧
        (res < 0 ∧ outcome = .error res ∧ next = wrote ∨ 0 ≤ res ∧
          (fat16ReadLoop read ptrs.entry size buf count (i32 (offset + size))
            (outOffset + size)).run wrote = .ok (outcome, next))) := by
  obtain ⟨filled, present, untouched⟩ := reading.buffer
  have entry : (load Obj.bytes? ptrs.entry).run kernel = .ok (raw, kernel) :=
    load_of_obj reading.file.entry rfl
  rw [fat16ReadLoop, bind_of_ok entry] at run
  obtain ⟨⟨res, out⟩, streamed, delivered, run⟩ := bind_eq_ok.mp run
  obtain ⟨_, wrote, write, run⟩ := bind_eq_ok.mp run
  rw [fat16ReadInternal, bind_of_ok reading.volumeAt.loadPrivate_run] at delivered
  have only := (fat16ReadInternalCalls_streams reads _ _ _ _ _ kernel _ streamed (.refl kernel)
    delivered).1
  refine ⟨res, out, streamed, delivered, fun ends => ⟨wrote, ?_⟩⟩
  have buffer := only.kept present rfl
  obtain ⟨found, here, fits, same⟩ := writeBytes_eq_ok write
  rw [buffer] at here
  cases here
  rw [same] at run ⊢
  refine ⟨⟨(reading.file.of_onlyStreams only).setBuffer buffer apart _,
    (reading.volumeAt.of_onlyStreams only).setObj buffer rfl _,
    _, Kernel.setObj_objs_self .., untouched.trans (.write ends fits)⟩, only.drive,
    fun mounted => (mounted.of_onlyStreams only).setObj buffer rfl rfl _, ?_⟩
  by_cases failed : res < 0
  · rw [if_pos failed] at run
    cases run
    exact .inl ⟨failed, rfl, rfl⟩
  · rw [if_neg failed] at run
    exact .inr ⟨not_lt.mp failed, run⟩

/-- **A read that ends before the limit.** -/
theorem fat16ReadLoop_within (reads : ReadsStreams read) (within : ReadsAtMost read)
    (byte : volume.header.sectorsPerCluster < 256) (apart : buf ≠ ptrs.entry)
    {size : Nat} (word : size < 4294967296) :
    ∀ (count : Nat) (kernel : Kernel) (offset : Int) (outOffset : Nat) {outcome : Except Int Int},
      Reading volume fd ptrs raw pos buf limit contents kernel →
      (2147483648 ≤ size ∨ outOffset + size * count ≤ limit) →
      (fat16ReadLoop read ptrs.entry size buf count offset outOffset).run kernel =
        .ok (outcome, next) →
      Reading volume fd ptrs raw pos buf limit contents next ∧
        ∀ last, outcome = .ok last → u32 last = u32 (offset + (size * count : Nat)) := by
  intro count
  induction count with
  | zero =>
      intro kernel offset outOffset outcome reading _ run
      cases run
      refine ⟨reading, fun last same => ?_⟩
      cases same
      rw [Nat.mul_zero, Int.natCast_zero, Int.add_zero]
  | succ count ih =>
      intro kernel offset outOffset outcome reading ends run
      obtain ⟨res, out, streamed, delivered, rest⟩ := fat16ReadLoop_step reads apart reading run
      have short := fat16ReadInternalCalls_length reads within byte _ _ _ _ _ _ reading.volumeAt
        delivered
      have nothing : 2147483648 ≤ size → (i32 size).toNat = 0 := by
        unfold i32
        omega
      have amount : (i32 size).toNat ≤ size := by
        unfold i32
        omega
      have stays : out.length = 0 ∨ outOffset + out.length ≤ limit := by
        rw [Nat.mul_succ] at ends
        omega
      rw [Nat.mul_succ] at ends
      obtain ⟨wrote, reading', _, _, stopped | ⟨_, goesOn⟩⟩ := rest stays
      · obtain ⟨_, rfl, rfl⟩ := stopped
        exact ⟨reading', fun last same => nomatch same⟩
      · obtain ⟨reading'', counted⟩ := ih wrote _ _ reading' (by omega) goesOn
        refine ⟨reading'', fun last same => ?_⟩
        rw [counted last same, Nat.mul_succ]
        unfold u32 i32
        omega

variable {request : Nat → Nat → Prop}

/-- **A read whose walk is rejected before the limit.** It fails. -/
theorem fat16ReadLoop_rejected (delivers : Delivers read request)
    (entries : EntryRequests request) (reads : ReadsStreams read) (within : ReadsAtMost read)
    (apart : buf ≠ ptrs.entry) (first : firstCluster raw < 65536)
    {size piece : Nat} (word : size < 2147483648)
    (inside : piece = 0 ∨ piece * clusterBytes volume < size) :
    ∀ (element count : Nat) (kernel : Kernel) (offset outOffset : Nat) {outcome : Except Int Int},
      Reading volume fd ptrs raw pos buf limit contents kernel → Mounted volume kernel →
      element < count → offset + size * element + piece * clusterBytes volume < 2147483648 →
      outOffset + size * element + piece * clusterBytes volume ≤ limit →
      ¬ Accepted volume kernel.drive (firstCluster raw)
        ((offset + size * element) / clusterBytes volume + piece) →
      (fat16ReadLoop read ptrs.entry size buf count offset outOffset).run kernel =
        .ok (outcome, next) →
      Reading volume fd ptrs raw pos buf limit contents next ∧ ∃ res, outcome = .error res := by
  intro element
  induction element with
  | zero =>
      intro count kernel offset outOffset outcome reading mounted less below ends rejected run
      obtain ⟨count, rfl⟩ := Nat.exists_eq_succ_of_ne_zero (Nat.ne_of_gt less)
      obtain ⟨res, out, streamed, delivered, rest⟩ := fat16ReadLoop_step reads apart reading run
      rw [i32_natCast word, @i32_natCast (firstCluster raw) (by omega)] at delivered
      rw [Nat.mul_zero, Nat.add_zero] at below ends rejected
      obtain ⟨negative, short⟩ := fat16ReadInternalCalls_rejectedAt delivers entries reads within
        first _ piece kernel offset size res out mounted inside below rejected delivered
      obtain ⟨wrote, reading', _, _, stopped | ⟨nonnegative, _⟩⟩ := rest (.inr (by omega))
      · obtain ⟨_, rfl, rfl⟩ := stopped
        exact ⟨reading', res, rfl⟩
      · exact absurd negative (not_lt.mpr nonnegative)
  | succ element ih =>
      intro count kernel offset outOffset outcome reading mounted less below ends rejected run
      obtain ⟨count, rfl⟩ := Nat.exists_eq_succ_of_ne_zero (show count ≠ 0 by omega)
      obtain ⟨res, out, streamed, delivered, rest⟩ := fat16ReadLoop_step reads apart reading run
      have short := fat16ReadInternalCalls_length reads within mounted.sectorsPerCluster _ _ _ _ _ _
        reading.volumeAt delivered
      rw [i32_natCast word, Int.toNat_natCast] at short
      rw [Nat.mul_succ] at below ends rejected
      obtain ⟨wrote, reading', drive, mounts, stopped | ⟨_, goesOn⟩⟩ := rest (.inr (by omega))
      · obtain ⟨_, rfl, rfl⟩ := stopped
        exact ⟨reading', res, rfl⟩
      · rw [← Int.natCast_add, i32_natCast (by omega)] at goesOn
        refine ih count wrote _ _ reading' (mounts mounted) (by omega) (by omega) (by omega) ?_
          goesOn
        rw [drive, show offset + size + size * element = offset + (size * element + size) by omega]
        exact rejected

end Buffers

section Calls

variable {volume : FatPrivate} {kernel next : Kernel} {fd : Nat} {ptrs : FilePointers}
  {raw : List UInt8} {pos : Nat}

theorem fileSize_lt (raw : List UInt8) : fileSize raw < 4294967296 :=
  littleEndian_take_lt (raw.drop 28) 4

/-- What a completed `fseek` does to the position. -/
theorem fseek_completed (file : OpenFile kernel fd ptrs raw pos) (at_ : VolumeAt volume kernel)
    {offset res : Int} {whence : Nat}
    (run : (fseek fd offset whence).run kernel = .ok (res, next)) :
    ∃ sought, OpenFile next fd ptrs raw sought ∧ VolumeAt volume next ∧
      (sought = pos ∨ u32 offset < fileSize raw ∧
        (sought = u32 offset ∨ whence = seekCur ∧ sought = u32 (pos + u32 offset))) := by
  rw [fseek, bind_of_ok (fileGetDescriptor_run file), if_neg file.descNotNull, bind_of_ok file.load_desc,
    bind_of_ok (theFilesystem_run _)] at run
  dsimp only at run
  rw [fat16Seek, bind_of_ok file.load_descriptor, bind_of_ok file.load_item, if_neg (not_not.mpr rfl),
    bind_of_ok file.load_entry] at run
  split at run
  · cases run
    exact ⟨pos, file, at_, .inl rfl⟩
  next inside =>
  split at run
  · obtain ⟨_, run⟩ := store_bind_eq_ok.mp run
    cases run
    exact ⟨_, file.sought _, at_.setObj file.descriptor rfl _, .inr ⟨not_le.mp inside, .inl rfl⟩⟩
  split at run
  · cases run
    exact ⟨pos, file, at_, .inl rfl⟩
  split at run
  next relative =>
    obtain ⟨_, run⟩ := store_bind_eq_ok.mp run
    cases run
    exact ⟨_, file.sought _, at_.setObj file.descriptor rfl _,
      .inr ⟨not_le.mp inside, .inr ⟨relative, rfl⟩⟩⟩
  · cases run
    exact ⟨pos, file, at_, .inl rfl⟩

/-- The relative seeks that land in the file. -/
def SeekWithin (raw : List UInt8) (pos : Nat) (offset : Int) (whence : Nat) : Prop :=
  whence = seekCur → u32 offset < fileSize raw → u32 (pos + u32 offset) ≤ fileSize raw

/-- The element of a read from `pos` that holds the first byte after the file. -/
def lastElement (raw : List UInt8) (pos size : Nat) : Nat := (fileSize raw - pos) / size

/-- The piece of that element that holds it. -/
def lastPiece (volume : FatPrivate) (raw : List UInt8) (pos size : Nat) : Nat :=
  (fileSize raw - pos) % size / clusterBytes volume

/-- The walk for the piece that leaves the file is rejected. -/
structure FailsInside (volume : FatPrivate) (kernel : Kernel) (raw : List UInt8)
    (pos size nmemb : Nat) : Prop where
  mounted : Mounted volume kernel
  first : firstCluster raw < 65536
  sizeInt : size < 2147483648
  reached : lastElement raw pos size < nmemb
  offsetInt : pos + size * lastElement raw pos size +
    lastPiece volume raw pos size * clusterBytes volume < 2147483648
  rejected : ¬ Accepted volume kernel.drive (firstCluster raw)
    ((pos + size * lastElement raw pos size) / clusterBytes volume + lastPiece volume raw pos size)

/-- The reads that end in the file, and those that fail before they leave it. A size from `2^31`
on is a negative `int` and reads nothing, but moves the position. -/
def ReadWithin (volume : FatPrivate) (kernel : Kernel) (raw : List UInt8)
    (pos size nmemb : Nat) : Prop :=
  size = 0 ∨ nmemb = 0 ∨ pos + size * nmemb ≤ fileSize raw ∨
    2147483648 ≤ size ∧ u32 (pos + (size * nmemb : Nat)) ≤ fileSize raw ∨
    FailsInside volume kernel raw pos size nmemb

/-- **A read under its condition.** The position stays in the file, and the buffer is untouched
from the first byte on that would lie after the file. -/
theorem fread_completed (file : OpenFile kernel fd ptrs raw pos) (at_ : VolumeAt volume kernel)
    (byte : volume.header.sectorsPerCluster < 256) (inside : pos ≤ fileSize raw) {size nmemb : Nat}
    (sizeWord : size < 4294967296) (condition : ReadWithin volume kernel raw pos size nmemb)
    {buf : Nat} {contents : List UInt8} (buffer : kernel.objs buf = some (.bytes contents))
    (apart : buf ≠ ptrs.entry) {res : Int}
    (run : (fread diskstreamerRead buf size nmemb fd).run kernel = .ok (res, next)) :
    ∃ pos', pos' ≤ fileSize raw ∧
      Reading volume fd ptrs raw pos' buf (fileSize raw - pos) contents next := by
  have reads := diskstreamerRead_readsStreams
  have bounded := diskstreamerRead_readsAtMost
  have wordSize := fileSize_lt raw
  by_cases nothing : size = 0 ∨ nmemb = 0
  · rw [fread, if_pos (by omega)] at run
    cases run
    exact ⟨pos, inside, file, at_, contents, buffer, .refl _ _⟩
  have reading : Reading volume fd ptrs raw pos buf (fileSize raw - pos) contents kernel :=
    ⟨file, at_, contents, buffer, .refl _ _⟩
  rw [fread_eq file (by omega) (by omega), fat16Read, bind_of_ok file.load_descriptor,
    bind_of_ok file.load_item] at run
  obtain ⟨outcome, looped, loop, run⟩ := bind_eq_ok.mp run
  have failed : ∀ {res'}, outcome = .error res' → Reading volume fd ptrs raw pos buf
      (fileSize raw - pos) contents looped → ∃ pos', pos' ≤ fileSize raw ∧
        Reading volume fd ptrs raw pos' buf (fileSize raw - pos) contents next := by
    rintro res' rfl after
    cases run
    exact ⟨pos, inside, after⟩
  have finished : (2147483648 ≤ size ∨ 0 + size * nmemb ≤ fileSize raw - pos) →
      u32 (pos + (size * nmemb : Nat)) ≤ fileSize raw → ∃ pos', pos' ≤ fileSize raw ∧
        Reading volume fd ptrs raw pos' buf (fileSize raw - pos) contents next := by
    intro ends lands
    obtain ⟨after, counted⟩ := fat16ReadLoop_within reads bounded byte apart sizeWord nmemb kernel
      _ 0 reading ends loop
    cases outcome with
    | error res' => exact failed rfl after
    | ok last =>
        have loaded : (load Obj.fatFileDescriptor? ptrs.descriptor).run looped = .ok (_, looped) :=
          load_of_obj after.file.descriptor rfl
        have moved : u32 last = u32 (pos + (size * nmemb : Nat)) := by
          rw [counted last rfl, u32_i32_add]
        obtain ⟨filled, present, untouched⟩ := after.buffer
        have other := Kernel.ne_of_objs present after.file.descriptor (by simp)
        dsimp only at run
        rw [bind_of_ok loaded, moved] at run
        obtain ⟨_, run⟩ := store_bind_eq_ok.mp run
        rw [run_pure] at run
        obtain ⟨_, rfl⟩ := Prod.mk.inj (Except.ok.inj run)
        exact ⟨_, lands, after.file.sought _, after.volumeAt.setObj after.file.descriptor rfl _,
          filled, (Kernel.setObj_objs_of_ne _ _ other).trans present, untouched⟩
  rcases condition with zero | zero | ends | ⟨negative, lands⟩ | fails
  · exact absurd (.inl zero) nothing
  · exact absurd (.inr zero) nothing
  · refine finished (.inr (by omega)) ?_
    rw [u32_of_nonneg (by omega) (by omega)]
    omega
  · exact finished (.inl negative) lands
  · have whole := Nat.div_add_mod (fileSize raw - pos) size
    have part := Nat.div_mul_le_self ((fileSize raw - pos) % size) (clusterBytes volume)
    have rest := Nat.mod_lt (fileSize raw - pos) (show 0 < size by omega)
    have small := fails.offsetInt
    unfold lastElement lastPiece at small
    rw [i32_natCast (show pos < 2147483648 by omega)] at loop
    obtain ⟨after, res', stopped⟩ := fat16ReadLoop_rejected diskstreamerRead_delivers
      entryRequests_sectorRequest reads bounded apart fails.first fails.sizeInt
      (.inr (by unfold lastPiece; omega)) _ nmemb kernel pos 0 reading fails.mounted fails.reached
      fails.offsetInt (by unfold lastElement lastPiece; omega) fails.rejected loop
    exact failed stopped after

/-- The position that a descriptor holds. -/
def filePosition (ptrs : FilePointers) (kernel : Kernel) : Nat :=
  ((kernel.objs ptrs.descriptor).bind Obj.fatFileDescriptor?).elim 0 FatFileDescriptor.pos

theorem OpenFile.filePosition_eq (file : OpenFile kernel fd ptrs raw pos) :
    filePosition ptrs kernel = pos := by
  rw [filePosition, file.descriptor]
  rfl

/-- The runs of `fseek` and `fread` on a descriptor in which each call meets its condition. -/
inductive FileRun (volume : FatPrivate) (fd : Nat) (ptrs : FilePointers) (raw : List UInt8)
    (start : Kernel) : Kernel → Prop
  | start : FileRun volume fd ptrs raw start start
  | seek {kernel next : Kernel} {offset res : Int} {whence : Nat} :
      FileRun volume fd ptrs raw start kernel →
      SeekWithin raw (filePosition ptrs kernel) offset whence →
      (fseek fd offset whence).run kernel = .ok (res, next) →
      FileRun volume fd ptrs raw start next
  | read {kernel next : Kernel} {buf size nmemb : Nat} {contents : List UInt8} {res : Int} :
      FileRun volume fd ptrs raw start kernel →
      ReadWithin volume kernel raw (filePosition ptrs kernel) size nmemb →
      size < 4294967296 → kernel.objs buf = some (.bytes contents) → buf ≠ ptrs.entry →
      (fread diskstreamerRead buf size nmemb fd).run kernel = .ok (res, next) →
      FileRun volume fd ptrs raw start next

/-- Every run of that kind keeps the file open at a position inside it. -/
theorem fileRun_open {start : Kernel} (file : OpenFile start fd ptrs raw pos)
    (at_ : VolumeAt volume start) (byte : volume.header.sectorsPerCluster < 256)
    (inside : pos ≤ fileSize raw) (run : FileRun volume fd ptrs raw start kernel) :
    VolumeAt volume kernel ∧
      ∃ pos', OpenFile kernel fd ptrs raw pos' ∧ pos' ≤ fileSize raw := by
  induction run with
  | start => exact ⟨at_, pos, file, inside⟩
  | seek _ condition sought ih =>
      obtain ⟨at', pos', file', inside'⟩ := ih
      obtain ⟨pos'', file'', at'', lands⟩ := fseek_completed file' at' sought
      rw [file'.filePosition_eq] at condition
      refine ⟨at'', pos'', file'', ?_⟩
      rcases lands with rfl | ⟨accepted, rfl | ⟨relative, rfl⟩⟩
      · exact inside'
      · exact accepted.le
      · exact condition relative accepted
  | read _ condition sizeWord buffer apart fills ih =>
      obtain ⟨at', pos', file', inside'⟩ := ih
      rw [file'.filePosition_eq] at condition
      obtain ⟨pos'', inside'', after⟩ :=
        fread_completed file' at' byte inside' sizeWord condition buffer apart fills
      exact ⟨after.volumeAt, pos'', after.file, inside''⟩

/-- The position is at most the size of the file, and a read that meets its condition leaves the
buffer untouched from the first byte on that would lie after the file. -/
def StaysInFile (volume : FatPrivate) (fd : Nat) (ptrs : FilePointers) (raw : List UInt8)
    (kernel : Kernel) : Prop :=
  filePosition ptrs kernel ≤ fileSize raw ∧
    ∀ {buf size nmemb : Nat} {contents : List UInt8} {res : Int} {next : Kernel},
      ReadWithin volume kernel raw (filePosition ptrs kernel) size nmemb → size < 4294967296 →
      kernel.objs buf = some (.bytes contents) → buf ≠ ptrs.entry →
      (fread diskstreamerRead buf size nmemb fd).run kernel = .ok (res, next) →
      ∃ filled, next.objs buf = some (.bytes filled) ∧
        Untouched (fileSize raw - filePosition ptrs kernel) contents filled

/-- **The file is not left** in a run whose calls meet their conditions. -/
theorem fileRun_staysInFile {start : Kernel} (file : OpenFile start fd ptrs raw pos)
    (at_ : VolumeAt volume start) (byte : volume.header.sectorsPerCluster < 256)
    (inside : pos ≤ fileSize raw) (run : FileRun volume fd ptrs raw start kernel) :
    StaysInFile volume fd ptrs raw kernel := by
  obtain ⟨at', pos', file', inside'⟩ := fileRun_open file at_ byte inside run
  unfold StaysInFile
  rw [file'.filePosition_eq]
  refine ⟨inside', fun condition sizeWord buffer apart fills => ?_⟩
  obtain ⟨_, _, after⟩ :=
    fread_completed file' at' byte inside' sizeWord condition buffer apart fills
  exact after.buffer

end Calls

/-- A position and a relative seek inside the fragmented file. -/
theorem fileRun_fragmented : ∃ kernel, FileRun smallVolume 1 ⟨16384, 20480, 24576, 28672⟩
    twoClusterEntry fragmentedKernel kernel ∧
      StaysInFile smallVolume 1 ⟨16384, 20480, 24576, 28672⟩ twoClusterEntry kernel := by
  have at_ : VolumeAt smallVolume fragmentedKernel := ⟨rfl, rfl⟩
  have first : FileRun smallVolume 1 ⟨16384, 20480, 24576, 28672⟩ twoClusterEntry
      fragmentedKernel _ :=
    .seek .start (fun relative => absurd relative (by decide))
      (show (fseek 1 600 seekSet).run fragmentedKernel = .ok (0, _) from rfl)
  have second : FileRun smallVolume 1 ⟨16384, 20480, 24576, 28672⟩ twoClusterEntry
      fragmentedKernel _ :=
    .seek first (fun _ _ => by decide) (show (fseek 1 424 seekCur).run _ = .ok (0, _) from rfl)
  exact ⟨_, second, fileRun_staysInFile fragmentedKernel_open at_ (by decide) (by decide) second⟩

/-- Two seeks of 600 bytes, the second one relative, leave the file of 1024 bytes. -/
theorem fseek_leavesFile : ∃ sought moved,
    (fseek 1 600 seekSet).run fragmentedKernel = .ok (0, sought) ∧
      (fseek 1 600 seekCur).run sought = .ok (0, moved) ∧ fileSize twoClusterEntry = 1024 ∧
      filePosition ⟨16384, 20480, 24576, 28672⟩ moved = 1200 :=
  ⟨_, _, rfl, rfl, by decide, by decide⟩

end Peachos
