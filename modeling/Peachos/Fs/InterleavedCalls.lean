import Peachos.Fs.DescriptorLookup
import Peachos.Fs.FilePosition
import Peachos.Fs.Interleaving
import Peachos.Fs.OpenLeak

/-! # Interleaved calls on open files

What a file returns to the calls on it does not depend on the calls on other files between them
(`answers_alone`).
-/

namespace Peachos

open CInt Exec

/-- A regular file is open whose position is all that its calls change of it. -/
structure Watched (start : Kernel) (volume : FatPrivate) (kept hidden : Nat → Prop) (fd : Nat)
    (ptrs : FilePointers) (raw : List UInt8) (pos : Nat) : Prop
    extends Scene start volume kept hidden where
  file : OpenFile start fd ptrs raw pos
  keepsDesc : kept ptrs.desc
  keepsItem : kept ptrs.item
  keepsEntry : kept ptrs.entry
  seen : ¬ hidden ptrs.descriptor
  free : ¬ kept ptrs.descriptor

section Calls

variable {start kernel other : Kernel} {kept hidden : Nat → Prop} {volume : FatPrivate} {fd : Nat}
  {ptrs : FilePointers} {raw : List UInt8} {pos : Nat}

/-- The state of the one run and of the other. -/
abbrev Beside (start : Kernel) (kept hidden : Nat → Prop) (kernel other : Kernel) : Prop :=
  SameShape start kernel ∧ Alike start kept hidden Unsynced kernel other

/-- The file is open in both, at one position. -/
theorem Watched.opened (watched : Watched start volume kept hidden fd ptrs raw pos)
    (beside : Beside start kept hidden kernel other) :
    ∃ pos, OpenFile kernel fd ptrs raw pos ∧ OpenFile other fd ptrs raw pos := by
  obtain ⟨shape, alike⟩ := beside
  have file := watched.file
  have visible := fun ptr => watched.visible ptr
  have same : ∀ ptr, kept ptr → kernel.objs ptr = start.objs ptr := alike.kept
  have positioned := shape.shape ptrs.descriptor
  rw [file.descriptor, Option.map_some, Option.map_eq_some_iff] at positioned
  obtain ⟨found, descriptor, form⟩ := positioned
  obtain ⟨pos', rfl⟩ : ∃ pos', found = .fatFileDescriptor { item := ptrs.item, pos := pos' } := by
    cases found with
    | fatFileDescriptor value =>
        simp only [Obj.shape, Obj.fatFileDescriptor.injEq, FatFileDescriptor.mk.injEq,
          and_true] at form
        exact ⟨value.pos, by rw [← form]⟩
    | _ => cases form
  have slots : kernel.fileDescriptors = start.fileDescriptors := by rw [shape.globals]
  have slots' : other.fileDescriptors = kernel.fileDescriptors := by rw [alike.globals]
  have opened : OpenFile kernel fd ptrs raw pos' :=
    ⟨file.positive, file.inTable, slots ▸ file.slot, file.descNotNull,
      (same _ watched.keepsDesc).trans file.desc, descriptor,
      (same _ watched.keepsItem).trans file.item, (same _ watched.keepsEntry).trans file.entry⟩
  exact ⟨pos', opened, opened.positive, opened.inTable, slots' ▸ opened.slot, opened.descNotNull,
    alike.obj (visible _ watched.keepsDesc) opened.desc rfl,
    alike.obj watched.seen opened.descriptor rfl,
    alike.obj (visible _ watched.keepsItem) opened.item rfl,
    alike.obj (visible _ watched.keepsEntry) opened.entry rfl⟩

/-- The position is set in both. -/
theorem Watched.moves (watched : Watched start volume kept hidden fd ptrs raw pos)
    (beside : Beside start kept hidden kernel other) {before : Nat}
    (opened : OpenFile kernel fd ptrs raw before) (after : Nat) :
    Beside start kept hidden
      (kernel.setObj ptrs.descriptor (some (.fatFileDescriptor { item := ptrs.item, pos := after })))
      (other.setObj ptrs.descriptor
        (some (.fatFileDescriptor { item := ptrs.item, pos := after }))) :=
  ⟨beside.1.trans (.setObj opened.descriptor rfl),
    (beside.2.setObj watched.free _).unsynced⟩

theorem Watched.fread_coupled (watched : Watched start volume kept hidden fd ptrs raw pos)
    {buf : Nat} (visible : ¬ hidden buf) (free : ¬ kept buf) (size nmemb : Nat) :
    Coupled (Beside start kept hidden) (fread diskstreamerRead buf size nmemb fd) fun _ =>
      Beside start kept hidden := by
  intro kernel other beside
  by_cases nothing : size = 0 ∨ nmemb = 0
  · have refused : ∀ kernel, (fread diskstreamerRead buf size nmemb fd).run kernel =
        .ok (-einvagr, kernel) := fun kernel => by
      rw [fread, if_pos (by omega), run_pure]
    exact .inr ⟨_, _, _, refused kernel, refused other, beside⟩
  obtain ⟨pos, opened, opened'⟩ := watched.opened beside
  rw [fread_eq opened (by omega) (by omega), fread_eq opened' (by omega) (by omega), fat16Read,
    bind_of_ok opened.load_descriptor, bind_of_ok opened.load_item,
    bind_of_ok opened'.load_descriptor, bind_of_ok opened'.load_item]
  have looped := (fat16ReadLoop_coupled watched.toScene watched.keepsEntry visible free size nmemb
    (i32 pos) 0).ensuring (@fat16ReadLoop_sameShape start _ _ _ _ _ _)
  refine (looped.bind fun outcome => ?_) kernel other beside
  cases outcome with
  | error res => exact .pure fun _ _ => And.right
  | ok offset =>
      rintro kernel other ⟨-, beside⟩
      obtain ⟨pos, opened, opened'⟩ := watched.opened beside
      refine .inr ⟨i32 nmemb, _, _, ?_, ?_, watched.moves beside opened (u32 offset)⟩
      · dsimp only
        rw [bind_of_ok opened.load_descriptor,
          bind_of_ok (store_of_live (by rw [opened.descriptor]; rfl)), run_pure]
      · dsimp only
        rw [bind_of_ok opened'.load_descriptor,
          bind_of_ok (store_of_live (by rw [opened'.descriptor]; rfl)), run_pure]

/-- `fseek` in an open file sets the position, or leaves it. -/
theorem fseek_eq (file : OpenFile kernel fd ptrs raw pos) (offset : Int) (whence : Nat) :
    (fseek fd offset whence).run kernel =
      (if u32 offset ≥ fileSize raw then pure (-eio)
      else if whence = seekSet then do
        store ptrs.descriptor (.fatFileDescriptor { item := ptrs.item, pos := u32 offset })
        pure 0
      else if whence = seekEnd then pure (-eunimp)
      else if whence = seekCur then do
        store ptrs.descriptor
          (.fatFileDescriptor { item := ptrs.item, pos := u32 (pos + u32 offset) })
        pure 0
      else pure (-einvagr) : K Int).run kernel := by
  rw [fseek, bind_of_ok (fileGetDescriptor_run file), if_neg file.descNotNull,
    bind_of_ok file.load_desc, bind_of_ok (theFilesystem_run _)]
  dsimp only
  rw [fat16Seek, bind_of_ok file.load_descriptor, bind_of_ok file.load_item,
    if_neg (not_not.mpr rfl), bind_of_ok file.load_entry]
  rfl

theorem Watched.fseek_coupled (watched : Watched start volume kept hidden fd ptrs raw pos)
    (offset : Int) (whence : Nat) :
    Coupled (Beside start kept hidden) (fseek fd offset whence) fun _ =>
      Beside start kept hidden := by
  intro kernel other beside
  obtain ⟨pos, opened, opened'⟩ := watched.opened beside
  rw [fseek_eq opened, fseek_eq opened']
  have moved : ∀ after, Coupled (fun k o => k = kernel ∧ o = other) (do
      store ptrs.descriptor (.fatFileDescriptor { item := ptrs.item, pos := after })
      pure (0 : Int) : K Int) fun _ => Beside start kept hidden := by
    rintro after _ _ ⟨rfl, rfl⟩
    refine .inr ⟨0, _, _, ?_, ?_, watched.moves beside opened after⟩
    · rw [bind_of_ok (store_of_live (by rw [opened.descriptor]; rfl)), run_pure]
    · rw [bind_of_ok (store_of_live (by rw [opened'.descriptor]; rfl)), run_pure]
  have stays : ∀ code : Int, Coupled (fun k o => k = kernel ∧ o = other) (pure code : K Int)
      fun _ => Beside start kept hidden := by
    refine fun code => .pure ?_
    rintro _ _ ⟨rfl, rfl⟩
    exact beside
  exact Coupled.ite (fun _ => stays _) (fun _ => .ite (fun _ => moved _) fun _ =>
    .ite (fun _ => stays _) fun _ => .ite (fun _ => moved _) fun _ => stays _) kernel other ⟨rfl, rfl⟩

/-- What `fstat` says about the file with the given directory entry. -/
def statOf (raw : List UInt8) : FileStat where
  flags := if (FatDirectoryItem.decode raw).attributes &&& fatFileReadOnly ≠ 0
    then fileStatReadOnly else 0
  filesize := fileSize raw

theorem fstat_eq (file : OpenFile kernel fd ptrs raw pos) (stat : FileStat) :
    (fstat fd stat).run kernel = .ok ((0, statOf raw), kernel) := by
  rw [fstat, bind_of_ok (fileGetDescriptor_run file), if_neg file.descNotNull,
    bind_of_ok file.load_desc, bind_of_ok (theFilesystem_run _)]
  dsimp only
  rw [fat16Stat, bind_of_ok file.load_descriptor, bind_of_ok file.load_item,
    if_neg (not_not.mpr rfl), bind_of_ok file.load_entry]
  rfl

/-- The buffer that a call fills. -/
def FileCall.buffer : FileCall → Option Nat
  | .fread buf _ _ => some buf
  | _ => none

/-- **A call on the file** goes the same way in both. -/
theorem Watched.call_coupled (watched : Watched start volume kept hidden fd ptrs raw pos)
    {call : FileCall} (buffers : ∀ buf, call.buffer = some buf → ¬ hidden buf ∧ ¬ kept buf) :
    Coupled (Beside start kept hidden) (call.perform fd) fun _ => Beside start kept hidden := by
  cases call with
  | fread buf size nmemb =>
      obtain ⟨visible, free⟩ := buffers buf rfl
      exact (watched.fread_coupled visible free size nmemb).bind fun _ => .pure fun _ _ => id
  | fseek offset whence =>
      exact (watched.fseek_coupled offset whence).bind fun _ => .pure fun _ _ => id
  | fstat stat =>
      intro kernel other beside
      obtain ⟨pos, opened, opened'⟩ := watched.opened beside
      refine .inr ⟨(0, some (statOf raw)), _, _, ?_, ?_, beside⟩
      · rw [FileCall.perform, bind_of_ok (fstat_eq opened stat), run_pure]
      · rw [FileCall.perform, bind_of_ok (fstat_eq opened' stat), run_pure]

/-- Streams move in the first. -/
theorem Beside.streams (watched : Watched start volume kept hidden fd ptrs raw pos)
    (beside : Beside start kept hidden kernel other) {next : Kernel}
    (only : OnlyStreams kernel next) : Beside start kept hidden next other :=
  ⟨beside.1.trans (.of_onlyStreams only), beside.2.streams watched.toScene only⟩

/-- A hidden object is written in the first. -/
theorem Beside.setHidden (watched : Watched start volume kept hidden fd ptrs raw pos)
    (beside : Beside start kept hidden kernel other) {ptr : Nat} (unseen : hidden ptr)
    {before after : Obj} (present : kernel.objs ptr = some before)
    (same : after.shape = before.shape) :
    Beside start kept hidden (kernel.setObj ptr (some after)) other :=
  ⟨beside.1.trans (.setObj present same),
    beside.2.setHidden (fun held => watched.visible ptr held unseen) unseen _⟩

theorem load_beside {α : Type} (view : Obj → Option α) (ptr : Nat) :
    Ensures (fun kernel => Beside start kept hidden kernel other) (load view ptr) fun _ => True :=
  .demand fun _ _ _ _ => trivial

/-- A read into a hidden buffer through a hidden descriptor. -/
theorem Watched.fat16Read_hidden (watched : Watched start volume kept hidden fd ptrs raw pos)
    {descriptor buf : Nat} (unseen : hidden descriptor) (unseen' : hidden buf) (size nmemb : Nat) :
    Ensures (fun kernel => Beside start kept hidden kernel other)
      (fat16Read diskstreamerRead descriptor size nmemb buf) fun _ => True := by
  have delivers : ∀ cluster offset total, Ensures (fun kernel => Beside start kept hidden kernel other)
      (fat16ReadInternal diskstreamerRead cluster offset total) fun _ => True :=
    fun cluster offset total kernel _ next beside run =>
      ⟨beside.streams watched (fat16ReadInternal_streams diskstreamerRead_readsStreams
        cluster offset total kernel _ next (.refl kernel) run).1, trivial⟩
  have fills : ∀ outOffset out, Ensures (fun kernel => Beside start kept hidden kernel other)
      (writeBytes buf outOffset out) fun _ => True := by
    intro outOffset out kernel _ next beside run
    obtain ⟨contents, present, _, rfl⟩ := writeBytes_eq_ok run
    exact ⟨beside.setHidden watched unseen' present rfl, trivial⟩
  have looped : ∀ (item count : Nat) (offset : Int) (outOffset : Nat),
      Ensures (fun kernel => Beside start kept hidden kernel other)
        (fat16ReadLoop diskstreamerRead item size buf count offset outOffset) fun _ => True := by
    intro item count
    induction count with
    | zero => exact fun _ _ => .pure trivial
    | succ count ih =>
        intro offset outOffset
        refine .bind (load_beside _ _) fun entry _ => .bind (delivers _ _ _) fun result _ => ?_
        exact .bind (fills _ _) fun _ _ => .ite (fun _ => .pure trivial) fun _ => ih _ _
  refine .bind (load_beside _ _) fun value _ => .bind (load_beside _ _) fun item _ =>
    .bind (looped _ _ _ _) fun outcome _ => ?_
  cases outcome with
  | error res => exact .pure trivial
  | ok offset =>
      refine loadStore_ensures (fun kernel contents value beside present typed => ?_) fun _ =>
        .pure trivial
      cases contents <;> cases typed
      exact beside.setHidden watched unseen present rfl

/-- A seek changes at most the position. -/
theorem fat16Seek_only {next : Kernel} {descriptor offset seekMode : Nat} {res : Int}
    (run : (fat16Seek descriptor offset seekMode).run kernel = .ok (res, next)) :
    next = kernel ∨ ∃ value pos, kernel.objs descriptor = some (.fatFileDescriptor value) ∧
      next = kernel.setObj descriptor (some (.fatFileDescriptor { value with pos := pos })) := by
  obtain ⟨object, value, present, typed, run⟩ := load_bind_eq_ok.mp run
  cases object <;> cases typed
  obtain ⟨_, item, _, _, run⟩ := load_bind_eq_ok.mp run
  have unchanged : ∀ code : Int, (pure code : K Int).run kernel = .ok (res, next) →
      next = kernel := by
    intro code run
    cases run
    rfl
  have stored : ∀ pos, (do
      store descriptor (.fatFileDescriptor { value with pos := pos })
      pure (0 : Int) : K Int).run kernel = .ok (res, next) →
      next = kernel.setObj descriptor (some (.fatFileDescriptor { value with pos := pos })) := by
    intro pos run
    obtain ⟨_, done⟩ := store_bind_eq_ok.mp run
    cases done
    rfl
  split at run
  · exact .inl (unchanged _ run)
  obtain ⟨_, raw, _, _, run⟩ := load_bind_eq_ok.mp run
  split at run
  · exact .inl (unchanged _ run)
  split at run
  · exact .inr ⟨value, _, present, stored _ run⟩
  split at run
  · exact .inl (unchanged _ run)
  split at run
  · exact .inr ⟨value, _, present, stored _ run⟩
  · exact .inl (unchanged _ run)

theorem Watched.fat16Seek_hidden (watched : Watched start volume kept hidden fd ptrs raw pos)
    {descriptor : Nat} (unseen : hidden descriptor) (offset seekMode : Nat) :
    Ensures (fun kernel => Beside start kept hidden kernel other)
      (fat16Seek descriptor offset seekMode) fun _ => True := by
  intro kernel res next beside run
  rcases fat16Seek_only run with rfl | ⟨value, pos, present, rfl⟩
  · exact ⟨beside, trivial⟩
  · exact ⟨beside.setHidden watched unseen present rfl, trivial⟩

/-- **A call on another file** changes nothing that can be seen of the file. -/
theorem Watched.call_hidden (watched : Watched start volume kept hidden fd ptrs raw pos)
    {number : Int} {call : FileCall}
    (elsewhere : ∀ index desc, number = (index + 1 : Nat) →
      start.fileDescriptors[index]? = some desc → desc ≠ 0 →
      ∃ value, start.objs desc = some (.fileDescriptor value) ∧ hidden value.privateData)
    (buffers : ∀ buf, call.buffer = some buf → hidden buf) :
    Ensures (fun kernel => Beside start kept hidden kernel other) (call.perform number)
      fun _ => True := by
  have onFile : ∀ {α : Type} (closed : α) (next : FileDescriptor → K α),
      (∀ value, hidden value.privateData →
        Ensures (fun kernel => Beside start kept hidden kernel other) (next value) fun _ => True) →
      Ensures (fun kernel => Beside start kept hidden kernel other) (do
        let desc ← fileGetDescriptor number
        if desc = 0 then pure closed
        else do
          let value ← load Obj.fileDescriptor? desc
          next value) fun _ => True := by
    intro α closed next hides kernel result final beside run
    obtain ⟨desc, middle, found, rest⟩ := bind_eq_ok.mp run
    obtain rfl := fileGetDescriptor_same found
    by_cases null : desc = 0
    · rw [if_pos null] at rest
      cases rest
      exact ⟨beside, trivial⟩
    rw [if_neg null] at rest
    obtain ⟨index, numbered, _, slot⟩ := fileGetDescriptor_found null found
    rw [show middle.fileDescriptors = start.fileDescriptors by rw [beside.1.globals]] at slot
    obtain ⟨value, present, unseen⟩ := elsewhere index desc numbered slot null
    have present' : middle.objs desc = some (.fileDescriptor value) :=
      beside.1.obj present (by rintro (_ | _) <;> first | exact id | nofun)
    have loaded : (load Obj.fileDescriptor? desc).run middle = .ok (value, middle) :=
      load_of_obj present' rfl
    rw [bind_of_ok loaded] at rest
    exact hides value unseen middle result final beside rest
  have disk : ∀ {α : Type} (filesystem : Option Filesystem) (next : Filesystem → K α),
      (∀ kind, Ensures (fun kernel => Beside start kept hidden kernel other) (next kind)
        fun _ => True) →
      Ensures (fun kernel => Beside start kept hidden kernel other)
        (theFilesystem filesystem >>= next) fun _ => True :=
    fun filesystem next kept => .bind (.demand fun _ _ _ _ => trivial) fun kind _ => kept kind
  cases call with
  | fread buf size nmemb =>
      refine .bind (.ite (fun _ => .pure trivial) fun _ => onFile _ _ fun value unseen => ?_)
        fun _ _ => .pure trivial
      refine disk _ _ fun kind => ?_
      cases kind
      have onDisk : Ensures (fun kernel => Beside start kept hidden kernel other)
          (theDisk value.disk) fun _ => True := .ite (fun _ => .pure trivial) fun _ => .fault _
      exact .bind onDisk fun _ _ => watched.fat16Read_hidden unseen (buffers buf rfl) size nmemb
  | fseek offset whence =>
      refine .bind (onFile _ _ fun value unseen => disk _ _ fun kind => ?_) fun _ _ => .pure trivial
      cases kind
      exact watched.fat16Seek_hidden unseen _ _
  | fstat stat =>
      refine .bind (onFile _ _ fun value unseen => disk _ _ fun kind => ?_) fun _ _ => .pure trivial
      cases kind
      exact .bind (load_beside _ _) fun _ _ => .bind (load_beside _ _) fun _ _ =>
        .ite (fun _ => .pure trivial) fun _ => .bind (load_beside _ _) fun _ _ => .pure trivial

end Calls

/-- Calls on files, and each answer with the number of its file. -/
def answers : List (Int × FileCall) → K (List (Int × Int × Option FileStat))
  | [] => pure []
  | (fd, call) :: calls => do
      let answer ← call.perform fd
      let rest ← answers calls
      pure ((fd, answer) :: rest)

/-- Of calls and of answers, those on one file. -/
def atNumber {α : Type} (fd : Nat) (tagged : List (Int × α)) : List (Int × α) :=
  tagged.filter fun entry => entry.1 = fd

theorem atNumber_own {α : Type} (fd : Nat) (value : α) (rest : List (Int × α)) :
    atNumber fd (((fd : Int), value) :: rest) = ((fd : Int), value) :: atNumber fd rest :=
  List.filter_cons_of_pos (decide_eq_true rfl)

theorem atNumber_other {α : Type} {fd : Nat} {number : Int} (other : number ≠ fd) (value : α)
    (rest : List (Int × α)) : atNumber fd ((number, value) :: rest) = atNumber fd rest :=
  List.filter_cons_of_neg (by simpa using other)

/-- The buffers of the calls are buffers of bytes, none is the directory entry of the file, and the
calls on other files use no buffer of a call on the file. -/
structure BuffersApart (start : Kernel) (fd entry : Nat) (calls : List (Int × FileCall)) :
    Prop where
  bytes : ∀ call ∈ calls, ∀ buf, call.2.buffer = some buf → buf ≠ entry ∧
    ∃ contents, start.objs buf = some (.bytes contents)
  apart : ∀ own ∈ calls, own.1 = fd → ∀ other ∈ calls, other.1 ≠ fd → ∀ buf,
    own.2.buffer = some buf → other.2.buffer ≠ some buf

/-- What no call on the file touches. -/
def KeptOf (start : Kernel) (ptrs : FilePointers) (ptr : Nat) : Prop :=
  ptr = start.disk.fsPrivate ∨ ptr = ptrs.desc ∨ ptr = ptrs.item ∨ ptr = ptrs.entry

/-- What only the calls on other files touch. -/
def HiddenFrom (start : Kernel) (fd : Nat) (ptrs : FilePointers) (calls : List (Int × FileCall))
    (ptr : Nat) : Prop :=
  (∃ call ∈ calls, call.1 ≠ fd ∧ call.2.buffer = some ptr) ∨
    ptr ≠ ptrs.descriptor ∧ ∃ value, start.objs ptr = some (.fatFileDescriptor value)

section Runs

variable {region : KernelRegion} {live : List Allocation} {start kernel other final : Kernel}
  {volume : FatPrivate} {records : List FileRecord} {record : FileRecord}
  {kept hidden : Nat → Prop} {fd : Nat} {ptrs : FilePointers} {raw : List UInt8} {pos : Nat}

/-- **Runs of calls.** By induction on the calls: those on the file go the same way in both, and the
others change only what is hidden. -/
theorem Watched.answers_beside (watched : Watched start volume kept hidden fd ptrs raw pos)
    (calls : List (Int × FileCall))
    (own : ∀ call ∈ calls, call.1 = fd → ∀ buf, call.2.buffer = some buf →
      ¬ hidden buf ∧ ¬ kept buf)
    (others : ∀ call ∈ calls, call.1 ≠ fd → (∀ buf, call.2.buffer = some buf → hidden buf) ∧
      ∀ index desc, call.1 = (index + 1 : Nat) → start.fileDescriptors[index]? = some desc →
        desc ≠ 0 → ∃ value, start.objs desc = some (.fileDescriptor value) ∧
          hidden value.privateData) :
    ∀ {kernel other final : Kernel} {results}, Beside start kept hidden kernel other →
      (answers calls).run kernel = .ok (results, final) →
      ∃ alone, (answers (atNumber fd calls)).run other = .ok (atNumber fd results, alone) ∧
        Beside start kept hidden final alone := by
  induction calls with
  | nil =>
      intro kernel other final results beside run
      cases run
      exact ⟨other, rfl, beside⟩
  | cons head calls ih =>
      obtain ⟨number, call⟩ := head
      intro kernel other final results beside run
      obtain ⟨answer, middle, performed, run⟩ := bind_eq_ok.mp run
      obtain ⟨rest, last, answered, done⟩ := bind_eq_ok.mp run
      cases done
      have own' := fun call (member : call ∈ calls) => own call (List.mem_cons_of_mem _ member)
      have others' := fun call (member : call ∈ calls) =>
        others call (List.mem_cons_of_mem _ member)
      by_cases here : number = fd
      · subst here
        obtain ⟨middle', performed', beside'⟩ :=
          (watched.call_coupled (own _ List.mem_cons_self rfl)).run_of_ok beside performed
        obtain ⟨alone, answered', beside''⟩ := ih own' others' beside' answered
        refine ⟨alone, ?_, beside''⟩
        rw [atNumber_own, atNumber_own, answers, bind_of_ok performed', bind_of_ok answered',
          run_pure]
      · obtain ⟨unseen, elsewhere⟩ := others _ List.mem_cons_self here
        obtain ⟨beside', _⟩ :=
          watched.call_hidden elsewhere unseen kernel answer middle beside performed
        obtain ⟨alone, answered', beside''⟩ := ih own' others' beside' answered
        refine ⟨alone, ?_, beside''⟩
        rw [atNumber_other here, atNumber_other here]
        exact answered'

theorem ItemContent.copy {entry type : Nat} {buffer : List Nat}
    (content : ItemContent kernel entry type buffer) (regular : type = fatItemTypeFile) :
    ∃ raw, kernel.objs entry = some (.bytes raw) := by
  cases content with
  | file copy => exact ⟨_, copy⟩
  | _ => exact absurd regular (by decide)

/-- A regular file of the table. -/
theorem FileTable.openFile (table : FileTable region live volume start records)
    (member : record ∈ records) (regular : record.type = fatItemTypeFile)
    (given : record.index + 1 < peachosMaxFileDescriptors) :
    ∃ raw, OpenFile start (record.index + 1) record.ptrs raw record.pos := by
  have holds := table.holds record member
  obtain ⟨raw, copy⟩ := holds.content.copy regular
  exact ⟨raw, Nat.succ_pos _, given, table.slot member, table.notNull member, holds.desc,
    holds.descriptor, regular ▸ holds.item, copy⟩

/-- Two files that share a block are one. -/
theorem FileTable.eq_of_block (table : FileTable region live volume start records)
    {other : FileRecord} (member : record ∈ records) (member' : other ∈ records) {ptr : Nat}
    (here : ptr ∈ record.blocks) (there : ptr ∈ other.blocks) : record = other := by
  have symmetric : Std.Symm fun first second : FileRecord =>
      ∀ ptr, ptr ∈ first.blocks → ¬ ptr ∈ second.blocks :=
    ⟨fun _ _ apart ptr mine theirs => apart ptr theirs mine⟩
  exact by_contra fun different =>
    table.owned.apart.forall member member' different ptr here there

/-- What is kept is there, and neither a stream nor a position. -/
theorem KeptOf.present (fsPrivate : start.objs start.disk.fsPrivate = some (.fatPrivate volume))
    (file : OpenFile start fd ptrs raw pos) {ptr : Nat} (held : KeptOf start ptrs ptr) :
    ∃ contents, start.objs ptr = some contents ∧ contents.diskStream? = none ∧
      contents.fatFileDescriptor? = none ∧ (contents.bytes?.isSome → ptr = ptrs.entry) := by
  rcases held with rfl | rfl | rfl | rfl
  · exact ⟨_, fsPrivate, rfl, rfl, nofun⟩
  · exact ⟨_, file.desc, rfl, rfl, nofun⟩
  · exact ⟨_, file.item, rfl, rfl, nofun⟩
  · exact ⟨_, file.entry, rfl, rfl, fun _ => rfl⟩

/-- What is hidden holds bytes, but not the directory entry, or a position. -/
theorem HiddenFrom.present {calls : List (Int × FileCall)}
    (separate : BuffersApart start fd ptrs.entry calls) {ptr : Nat} {contents : Obj}
    (present : start.objs ptr = some contents) (unseen : HiddenFrom start fd ptrs calls ptr) :
    contents.bytes?.isSome ∧ ptr ≠ ptrs.entry ∨
      contents.fatFileDescriptor?.isSome ∧ ptr ≠ ptrs.descriptor := by
  rcases unseen with ⟨call, member, _, buffer⟩ | ⟨different, value, descriptor⟩
  · obtain ⟨different, raw, bytes⟩ := separate.bytes call member ptr buffer
    rw [present] at bytes
    cases bytes
    exact .inl ⟨rfl, different⟩
  · rw [present] at descriptor
    cases descriptor
    exact .inr ⟨rfl, different⟩

theorem FileTable.watched (table : FileTable region live volume start records)
    (file : OpenFile start fd ptrs raw pos) {calls : List (Int × FileCall)}
    (separate : BuffersApart start fd ptrs.entry calls) :
    Watched start volume (KeptOf start ptrs) (HiddenFrom start fd ptrs calls) fd ptrs raw pos := by
  have volumeLive := table.root.volumeLive
  refine {
    fsPrivate := volumeLive.fsPrivate
    keepsPrivate := .inl rfl
    visible := fun ptr held unseen => ?_
    solid := fun ptr held => ?_
    streams := fun stream member unseen => ?_
    file := file
    keepsDesc := .inr (.inl rfl)
    keepsItem := .inr (.inr (.inl rfl))
    keepsEntry := .inr (.inr (.inr rfl))
    seen := fun unseen => ?_
    free := fun held => ?_ }
  · obtain ⟨contents, present, _, untyped, entry⟩ := held.present volumeLive.fsPrivate file
    rcases unseen.present separate present with ⟨bytes, different⟩ | ⟨typed, _⟩
    · exact different (entry bytes)
    · rw [untyped] at typed
      cases typed
  · obtain ⟨contents, present, solid, _⟩ := held.present volumeLive.fsPrivate file
    exact ⟨contents, present, solid⟩
  · obtain ⟨value, present, _⟩ := volumeLive.onDisk stream member
    rcases unseen.present separate present with ⟨typed, _⟩ | ⟨typed, _⟩ <;> cases typed
  · rcases unseen.present separate file.descriptor with ⟨typed, _⟩ | ⟨_, different⟩
    · cases typed
    · exact different rfl
  · obtain ⟨contents, present, _, untyped, _⟩ := held.present volumeLive.fsPrivate file
    rw [file.descriptor] at present
    cases present
    cases untyped

theorem OpenFile.view (file : OpenFile kernel fd ptrs raw pos) : fileView kernel (fd - 1) = some {
    descriptor := {
      index := fd
      filesystem := some .fat16
      privateData := ptrs.descriptor
      disk := .disk }
    privateData := { item := ptrs.item, pos := pos }
    item := { pointer := ptrs.entry, type := fatItemTypeFile }
    content := some (.bytes raw)
    entries := none } := by
  simp only [fileView, file.slot, file.desc, file.descriptor, file.item, file.entry,
    Option.bind_some, Option.bind_eq_bind, Obj.fileDescriptor?, Obj.fatFileDescriptor?,
    Obj.fatItem?, directoryEntries]

/-- **Interleaving.** In every completed run of calls on the open files, each regular file answers
as if only the calls on it had been made: with the same results, the same bytes in their buffers
and the same position after them. -/
theorem answers_alone (table : FileTable region live volume start records)
    (member : record ∈ records) (regular : record.type = fatItemTypeFile)
    (given : record.index + 1 < peachosMaxFileDescriptors) {calls : List (Int × FileCall)}
    (separate : BuffersApart start (record.index + 1) record.ptrs.entry calls)
    {results : List (Int × Int × Option FileStat)}
    (run : (answers calls).run start = .ok (results, final)) :
    ∃ alone, (answers (atNumber (record.index + 1) calls)).run start =
        .ok (atNumber (record.index + 1) results, alone) ∧
      fileView alone record.index = fileView final record.index ∧
      ∀ call ∈ atNumber (record.index + 1) calls, ∀ buf, call.2.buffer = some buf →
        alone.objs buf = final.objs buf := by
  obtain ⟨raw, file⟩ := table.openFile member regular given
  have watched := table.watched file separate
  have own : ∀ call ∈ calls, call.1 = (record.index + 1 : Nat) → ∀ buf,
      call.2.buffer = some buf →
      ¬ HiddenFrom start (record.index + 1) record.ptrs calls buf ∧
        ¬ KeptOf start record.ptrs buf := by
    intro call member here buf buffer
    obtain ⟨different, contents, bytes⟩ := separate.bytes call member buf buffer
    constructor
    · rintro (⟨other, member', there, same⟩ | ⟨_, value, descriptor⟩)
      · exact separate.apart call member here other member' there buf buffer same
      · rw [bytes] at descriptor
        cases descriptor
    · intro held
      obtain ⟨found, present, _, _, entry⟩ :=
        held.present table.root.volumeLive.fsPrivate file
      rw [bytes] at present
      cases present
      exact different (entry rfl)
  have others : ∀ call ∈ calls, call.1 ≠ (record.index + 1 : Nat) → (∀ buf,
      call.2.buffer = some buf → HiddenFrom start (record.index + 1) record.ptrs calls buf) ∧
      ∀ index desc, call.1 = (index + 1 : Nat) → start.fileDescriptors[index]? = some desc →
        desc ≠ 0 → ∃ value, start.objs desc = some (.fileDescriptor value) ∧
          HiddenFrom start (record.index + 1) record.ptrs calls value.privateData := by
    intro call member' there
    refine ⟨fun buf buffer => .inl ⟨call, member', there, buffer⟩, fun index desc number slot
      notNull => ?_⟩
    obtain ⟨other, among, rfl, rfl⟩ := (table.slots index desc notNull).mp slot
    have holds := table.holds other among
    refine ⟨_, holds.desc, .inr ⟨fun same => ?_, _, holds.descriptor⟩⟩
    have one := table.eq_of_block among member
      (List.mem_cons_of_mem _ List.mem_cons_self)
      (show other.ptrs.descriptor ∈ record.blocks by
        rw [show other.ptrs.descriptor = record.ptrs.descriptor from same]
        exact List.mem_cons_of_mem _ List.mem_cons_self)
    exact there (by rw [number, one])
  obtain ⟨alone, answered, beside⟩ := watched.answers_beside calls own others
    ⟨.refl start, .refl start⟩ run
  obtain ⟨pos, opened, opened'⟩ := watched.opened beside
  refine ⟨alone, answered, opened'.view.trans opened.view.symm, fun call member' buf buffer => ?_⟩
  obtain ⟨member', here⟩ := List.mem_filter.mp member'
  obtain ⟨_, contents, bytes⟩ := separate.bytes call member' buf buffer
  have shape := beside.1.shape buf
  rw [bytes, Option.map_some, Option.map_eq_some_iff] at shape
  obtain ⟨filled, present, form⟩ := shape
  rw [present]
  refine beside.2.obj (own call member' (of_decide_eq_true here) buf buffer).1 present ?_
  cases filled with
  | bytes raw => rfl
  | _ => cases form

end Runs

/-- A disk with the files `F`, of `ABC`, and `G`, of `DEF`. -/
def twoFilesKernel : Kernel :=
  { freshKernel wideHeapRegion with
    drive := imageOf [(13, 1), (14, 1), (16, 1), (17, 4), (22, 1), (38, 0x29),
      (1024, 70), (1050, 2), (1052, 3), (1056, 71), (1082, 3), (1084, 3),
      (1536, 65), (1537, 66), (1538, 67), (2048, 68), (2049, 69), (2050, 70)] }

theorem twoFilesKernel_mounted : ∃ live start volume,
    (fat16Resolve diskstreamerRead).run twoFilesKernel = .ok (0, start) ∧
      KernelInvariant wideHeapRegion live start ∧ RootLive live volume start ∧
      start.disk.filesystem = some .fat16 ∧
      start.fileDescriptors = List.replicate peachosMaxFileDescriptors 0 := by
  obtain ⟨live, start, volume, mount, ready, _, _, _, globals⟩ := @fat16Resolve_run
    wideHeapRegion [] twoFilesKernel 0 64 ((freshKernel_invariant wideHeapRegion).of_same rfl rfl)
    ⟨by decide, by decide⟩ rfl rfl (by decide) [
      70 :: List.replicate 25 0 ++ [2, 0, 3, 0, 0, 0],
      71 :: List.replicate 25 0 ++ [3, 0, 3, 0, 0, 0]]
    ⟨by decide, by decide, by decide⟩ (by decide)
  refine ⟨live, start, volume, mount, ready.invariant, ⟨ready.mounted, ⟨_, ready.buffer⟩,
    ready.held⟩, ready.filesystem, ?_⟩
  rw [globals]
  rfl

/-- The first file is read in two parts, with calls on the second before, between and after. -/
def crossedReads (own theirs : Nat) : List (Int × FileCall) :=
  [(2, .fread theirs 1 1), (1, .fread own 2 1), (2, .fseek 2 seekSet), (2, .fread theirs 1 2),
    (1, .fstat {}), (1, .fread own 1 1), (2, .fseek 1 seekSet)]

/-- Mount the volume, open both files, allocate two buffers and make the calls: the answers, and
what else the calls need. -/
def readCrossed : K (Bool × List (Int × Int)) := do
  let _ ← fat16Resolve diskstreamerRead
  let given ← performCalls [openLetter 70, openLetter 71]
  let type ← openType 1
  let own ← kmalloc 2 (.bytes [0, 0])
  let theirs ← kmalloc 2 (.bytes [0, 0])
  let results ← answers (crossedReads own theirs)
  pure (decide (given = true ∧ type = fatItemTypeFile ∧ own ≠ 0 ∧ theirs ≠ 0),
    results.map fun answer => (answer.1, answer.2.1))

theorem readCrossed_run : (readCrossed.run twoFilesKernel).map Prod.fst =
    .ok (true, [(2, 1), (1, 1), (2, 0), (2, 2), (1, 0), (1, 1), (2, 0)]) := by
  decide +kernel

/-- Another block leaves the table as it is. -/
theorem FileTable.kmalloc {region : KernelRegion} {live : List Allocation} {kernel next : Kernel}
    {volume : FatPrivate} {records : List FileRecord}
    (table : FileTable region live volume kernel records) {size ptr : Nat}
    (small : size ≤ 4294963200) (positive : 1 ≤ size) {contents : Obj}
    (run : (kmalloc size contents).run kernel = .ok (ptr, next)) (notNull : ptr ≠ 0) :
    Placed region live (⟨ptr, size⟩ :: live) kernel contents ptr next ∧
      FileTable region (⟨ptr, size⟩ :: live) volume next records := by
  rcases kmalloc_completed table.invariant small run with ⟨null, _⟩ | ⟨empty, _⟩ | ⟨_, placed⟩
  · exact absurd null notNull
  · omega
  · exact ⟨placed, table.grown ((Extended.refl table.invariant).placed placed).toGrown⟩

/-- A file number that has a type is one of the table. -/
theorem FileTable.openType {region : KernelRegion} {live : List Allocation} {kernel next : Kernel}
    {volume : FatPrivate} {records : List FileRecord} {number type : Nat}
    (table : FileTable region live volume kernel records)
    (run : (openType (number + 1 : Nat)).run kernel = .ok (type, next)) :
    next = kernel ∧ number + 1 < peachosMaxFileDescriptors ∧
      ∃ record ∈ records, record.index = number ∧ record.type = type := by
  obtain ⟨desc, middle, found, rest⟩ := bind_eq_ok.mp run
  obtain rfl := fileGetDescriptor_same found
  obtain ⟨object, value, present, typed, _⟩ := load_bind_eq_ok.mp rest
  have notNull : desc ≠ 0 := by
    rintro rfl
    rw [table.invariant.null] at present
    cases present
  obtain ⟨index, numbered, given, slot⟩ := fileGetDescriptor_found notNull found
  obtain rfl : number = index := by omega
  obtain ⟨record, member, rfl, rfl⟩ := (table.slots number desc notNull).mp slot
  have holds := table.holds record member
  have described : (load Obj.fileDescriptor? record.ptrs.desc).run middle = .ok (_, middle) :=
    load_of_obj holds.desc rfl
  have positioned : (load Obj.fatFileDescriptor? record.ptrs.descriptor).run middle =
      .ok (_, middle) := load_of_obj holds.descriptor rfl
  have tagged : (load Obj.fatItem? record.ptrs.item).run middle = .ok (_, middle) :=
    load_of_obj holds.item rfl
  rw [bind_of_ok described, bind_of_ok positioned, bind_of_ok tagged] at rest
  cases rest
  exact ⟨rfl, given, record, member, rfl, rfl⟩

/-- `F` answers as if `G` had not been read between its own reads. -/
theorem answers_alone_crossed : ∃ start own theirs results final alone,
    (answers (crossedReads own theirs)).run start = .ok (results, final) ∧
      (answers [(1, .fread own 2 1), (1, .fstat {}), (1, .fread own 1 1)]).run start =
        .ok (atNumber 1 results, alone) ∧
      fileView alone 0 = fileView final 0 ∧ alone.objs own = final.objs own := by
  obtain ⟨live, start, volume, mount, inv, root, mounted, empty⟩ := twoFilesKernel_mounted
  obtain ⟨_, _, mount', evaluated⟩ := result_of_bind readCrossed_run
  rw [mount] at mount'
  cases mount'
  obtain ⟨given, opened, performed, evaluated⟩ := result_of_bind evaluated
  obtain ⟨type, _, typed, evaluated⟩ := result_of_bind evaluated
  obtain ⟨own, _, alloc, evaluated⟩ := result_of_bind evaluated
  obtain ⟨theirs, kernel, alloc', evaluated⟩ := result_of_bind evaluated
  obtain ⟨results, final, answered, evaluated⟩ := result_of_bind evaluated
  obtain ⟨known, _⟩ := Prod.mk.inj (Except.ok.inj evaluated)
  obtain ⟨rfl, rfl, notNull, notNull'⟩ := of_decide_eq_true known
  have run : TableRun diskstreamerRead (fun kernel call => call.Given diskstreamerRead kernel ∧
      call.Safe kernel) start opened :=
    performCalls_run (fun call member _ given => ⟨given, by
      rcases List.mem_pair.mp member with rfl | rfl <;> exact ⟨by decide, by decide⟩⟩)
      performed .start
  obtain ⟨live', records, table⟩ := tableRun_table diskstreamerRead_readsStreams
    (fileTable_empty inv root mounted empty) run
  have typed' : (openType (0 + 1 : Nat)).run opened = _ := typed
  obtain ⟨rfl, given, record, member, index, regular⟩ := table.openType typed'
  obtain ⟨placed, table'⟩ := table.kmalloc (by decide) (by decide) alloc notNull
  obtain ⟨placed', table''⟩ := table'.kmalloc (by decide) (by decide) alloc' notNull'
  have here : kernel.objs own = some (.bytes [0, 0]) :=
    (placed'.kept _ List.mem_cons_self).trans placed.present
  have different : own ≠ theirs := placed'.fresh _ List.mem_cons_self
  obtain ⟨home, inLive, entry⟩ := table.owned.held record member record.ptrs.entry (by
    simp [FileRecord.blocks])
  have apart : own ≠ record.ptrs.entry := entry ▸ (placed.fresh home inLive).symm
  have apart' : theirs ≠ record.ptrs.entry :=
    entry ▸ (placed'.fresh home (placed.grown inLive)).symm
  have separate : BuffersApart kernel (record.index + 1) record.ptrs.entry
      (crossedReads own theirs) := by
    have used : ∀ call ∈ crossedReads own theirs, ∀ buf, call.2.buffer = some buf →
        call.1 = 1 ∧ buf = own ∨ call.1 = 2 ∧ buf = theirs := by
      simp [crossedReads, FileCall.buffer]
    rw [index]
    constructor
    · intro call member' buf buffer
      rcases used call member' buf buffer with ⟨_, rfl⟩ | ⟨_, rfl⟩
      · exact ⟨apart, _, here⟩
      · exact ⟨apart', _, placed'.present⟩
    · intro mine member' first other member'' second buf buffer buffer'
      rcases used mine member' buf buffer with ⟨_, rfl⟩ | ⟨two, _⟩
      · rcases used other member'' buf buffer' with ⟨one, _⟩ | ⟨_, rfl⟩
        · exact second one
        · exact different rfl
      · rw [two] at first
        cases first
  rw [← index] at given
  obtain ⟨alone, answered', view, bytes⟩ := answers_alone table'' member regular given separate
    answered
  rw [index] at answered' view bytes
  exact ⟨kernel, own, theirs, results, final, alone, answered, answered', view,
    bytes (1, .fread own 2 1) (by simp [atNumber, crossedReads]) own rfl⟩

end Peachos
