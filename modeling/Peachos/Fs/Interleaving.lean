import Peachos.Foundation.TwoRuns
import Peachos.Fs.Growth
import Peachos.Fs.OpenFile

/-! # Reading from a disk that others read too

All files are read through the same two streams. Each read seeks before it reads, so where the
streams were before is no input of it (`fat16ReadInternal_coupled`).
-/

namespace Peachos

open CInt Exec

/-- What two kernels agree on: the objects in `kept` are those of `start`, those in `hidden` may be
any, and of the others only streams differ, none of them in `synced`. -/
structure Alike (start : Kernel) (kept hidden synced : Nat → Prop) (kernel other : Kernel) :
    Prop where
  started : kernel = { start with objs := kernel.objs }
  globals : other = { kernel with objs := other.objs }
  kept : ∀ ptr, kept ptr → kernel.objs ptr = start.objs ptr
  objs : ∀ ptr, ¬ hidden ptr → other.objs ptr = kernel.objs ptr ∨
    ¬ synced ptr ∧ ∃ before after : DiskStream, kernel.objs ptr = some (.diskStream before) ∧
      other.objs ptr = some (.diskStream after) ∧ after.disk = before.disk

/-- The private structure of the volume is kept, its streams are not hidden, and what is kept is
neither hidden nor a stream. -/
structure Scene (start : Kernel) (volume : FatPrivate) (kept hidden : Nat → Prop) : Prop where
  fsPrivate : start.objs start.disk.fsPrivate = some (.fatPrivate volume)
  keepsPrivate : kept start.disk.fsPrivate
  visible : ∀ ptr, kept ptr → ¬ hidden ptr
  solid : ∀ ptr, kept ptr → ∃ contents, start.objs ptr = some contents ∧
    contents.diskStream? = none
  streams : ∀ stream ∈ volume.streams, ¬ hidden stream

/-- No stream is at the same position for sure. -/
abbrev Unsynced : Nat → Prop := fun _ => False

namespace Alike

variable {start kernel other next last : Kernel} {kept hidden synced synced' : Nat → Prop}
  {ptr : Nat} {volume : FatPrivate}

theorem refl (start : Kernel) : Alike start kept hidden synced start start :=
  ⟨rfl, rfl, fun _ _ => rfl, fun _ _ => .inl rfl⟩

theorem fewer (alike : Alike start kept hidden synced kernel other)
    (less : ∀ ptr, synced' ptr → synced ptr) : Alike start kept hidden synced' kernel other where
  started := alike.started
  globals := alike.globals
  kept := alike.kept
  objs := fun ptr visible => (alike.objs ptr visible).imp_right fun ⟨unsynced, moved⟩ =>
    ⟨fun here => unsynced (less ptr here), moved⟩

theorem unsynced (alike : Alike start kept hidden synced kernel other) :
    Alike start kept hidden Unsynced kernel other :=
  alike.fewer fun _ => False.elim

/-- The two kernels show the same of an object that is no stream. -/
theorem view (alike : Alike start kept hidden synced kernel other) (visible : ¬ hidden ptr)
    {α : Type} {view : Obj → Option α} (solid : ∀ stream, view (.diskStream stream) = none) :
    (other.objs ptr).bind view = (kernel.objs ptr).bind view := by
  rcases alike.objs ptr visible with same | ⟨_, before, after, here, there, _⟩
  · rw [same]
  · rw [here, there, Option.bind_some, Option.bind_some, solid, solid]

/-- An object that is no stream is in both. -/
theorem obj (alike : Alike start kept hidden synced kernel other) (visible : ¬ hidden ptr)
    {contents : Obj} (present : kernel.objs ptr = some contents)
    (solid : contents.diskStream? = none) : other.objs ptr = some contents := by
  rcases alike.objs ptr visible with same | ⟨_, before, after, here, _, _⟩
  · rw [same, present]
  · rw [present] at here
    cases here
    cases solid

/-- The same object is written in both. -/
theorem setObj (alike : Alike start kept hidden synced kernel other) (free : ¬ kept ptr)
    (contents : Obj) : Alike start kept hidden (fun other => other = ptr ∨ synced other)
      (kernel.setObj ptr (some contents)) (other.setObj ptr (some contents)) where
  started := by
    conv_lhs => rw [alike.started]
    rfl
  globals := by
    conv_lhs => rw [alike.globals]
    rfl
  kept := fun found held => by
    have different : found ≠ ptr := fun same => free (same ▸ held)
    rw [Kernel.setObj_objs_of_ne _ _ different]
    exact alike.kept found held
  objs := by
    intro found visible
    by_cases same : found = ptr
    · rw [same, Kernel.setObj_objs_self, Kernel.setObj_objs_self]
      exact .inl rfl
    · rw [Kernel.setObj_objs_of_ne _ _ same, Kernel.setObj_objs_of_ne _ _ same]
      exact (alike.objs found visible).imp_right fun ⟨unsynced, moved⟩ =>
        ⟨fun here => unsynced (here.resolve_left same), moved⟩

/-- A hidden object is written in the first. -/
theorem setHidden (alike : Alike start kept hidden Unsynced kernel other) (free : ¬ kept ptr)
    (unseen : hidden ptr) (contents : Obj) :
    Alike start kept hidden Unsynced (kernel.setObj ptr (some contents)) other where
  started := by
    conv_lhs => rw [alike.started]
    rfl
  globals := by
    conv_lhs => rw [alike.globals]
    rfl
  kept := fun found held => by
    have different : found ≠ ptr := fun same => free (same ▸ held)
    rw [Kernel.setObj_objs_of_ne _ _ different]
    exact alike.kept found held
  objs := by
    intro found visible
    have different : found ≠ ptr := fun same => visible (same ▸ unseen)
    rw [Kernel.setObj_objs_of_ne _ _ different]
    exact alike.objs found visible

/-- Streams move in the first. -/
theorem streams (alike : Alike start kept hidden Unsynced kernel other)
    (scene : Scene start volume kept hidden) (only : OnlyStreams kernel next) :
    Alike start kept hidden Unsynced next other where
  started := by
    rw [only.globals]
    conv_lhs => rw [alike.started]
  globals := by
    rw [only.globals]
    conv_lhs => rw [alike.globals]
  kept := by
    intro ptr held
    obtain ⟨contents, present, solid⟩ := scene.solid ptr held
    have here := (alike.kept ptr held).trans present
    rw [present]
    exact only.kept here solid
  objs := by
    intro ptr visible
    rcases only.moved ptr with same | ⟨middle, moved, here, there, disk⟩
    · rw [same]
      exact alike.objs ptr visible
    · rcases alike.objs ptr visible with same | ⟨unsynced, before, after, here', there', disk'⟩
      · exact .inr ⟨id, moved, middle, there, same.trans here, disk.symm⟩
      · rw [here] at here'
        cases here'
        exact .inr ⟨unsynced, moved, after, there, there', disk'.trans disk.symm⟩

end Alike

section Reads

variable {start : Kernel} {kept hidden synced : Nat → Prop} {volume : FatPrivate}

/-- A load of an object that is no stream. -/
theorem load_coupled {α : Type} {view : Obj → Option α} {ptr : Nat} (visible : ¬ hidden ptr)
    (solid : ∀ stream, view (.diskStream stream) = none) :
    Coupled (Alike start kept hidden synced) (load view ptr) fun value kernel other =>
      (∃ contents, kernel.objs ptr = some contents ∧ view contents = some value) ∧
        Alike start kept hidden synced kernel other :=
  .demand (fun _ _ alike => alike.view visible solid)
    fun _ _ _ alike present => ⟨Option.bind_eq_some_iff.mp present, alike⟩

theorem readDisk_coupled : Coupled (Alike start kept hidden synced) (Exec.read Kernel.disk : K Disk)
    fun disk kernel other => disk = start.disk ∧ Alike start kept hidden synced kernel other :=
  .read (fun _ _ alike => by rw [alike.globals]) fun _ _ alike => ⟨by rw [alike.started], alike⟩

theorem loadPrivate_coupled (scene : Scene start volume kept hidden) :
    Coupled (Alike start kept hidden synced) loadPrivate fun value kernel other =>
      value = volume ∧ Alike start kept hidden synced kernel other := by
  refine readDisk_coupled.after fun disk same => ?_
  subst same
  refine (load_coupled (scene.visible _ scene.keepsPrivate) fun _ => rfl).mono (fun _ _ => id) ?_
  rintro value kernel other ⟨⟨contents, present, typed⟩, alike⟩
  rw [alike.kept _ scene.keepsPrivate, scene.fsPrivate] at present
  cases present
  cases typed
  exact ⟨rfl, alike⟩

theorem divide_coupled (dividend divisor : Int) :
    Coupled (Alike start kept hidden synced) (divide dividend divisor) fun _ =>
      Alike start kept hidden synced :=
  .ite (fun _ => .fault _) fun _ => .pure fun _ _ => id

theorem remainder_coupled (dividend divisor : Int) :
    Coupled (Alike start kept hidden synced) (remainder dividend divisor) fun _ =>
      Alike start kept hidden synced :=
  .ite (fun _ => .fault _) fun _ => .pure fun _ _ => id

/-- A stream is not kept. -/
theorem Alike.notKept {kernel other : Kernel} {stream : Nat} {value : DiskStream}
    (scene : Scene start volume kept hidden) (alike : Alike start kept hidden synced kernel other)
    (present : kernel.objs stream = some (.diskStream value)) : ¬ kept stream := by
  intro held
  obtain ⟨contents, here, solid⟩ := scene.solid stream held
  rw [← alike.kept stream held, present] at here
  cases here
  cases solid

/-- **Seeking** puts the stream at the same position in both. -/
theorem diskstreamerSeek_coupled (scene : Scene start volume kept hidden) {stream : Nat}
    (visible : ¬ hidden stream) (pos : Int) :
    Coupled (Alike start kept hidden synced) (diskstreamerSeek stream pos) fun res kernel other =>
      res = 0 ∧ Alike start kept hidden (fun ptr => ptr = stream ∨ synced ptr) kernel other := by
  intro kernel other alike
  have stopped : ∀ {kernel : Kernel}, (kernel.objs stream).bind Obj.diskStream? = none →
      (diskstreamerSeek stream pos).run kernel = .error (.badPointer stream) := by
    intro kernel none
    refine Exec.bind_of_error ?_
    simp only [load, Exec.demand, Exec.run_of, none]
  have moved : ∀ {kernel : Kernel} {value : DiskStream},
      kernel.objs stream = some (.diskStream value) → (diskstreamerSeek stream pos).run kernel =
        .ok (0, kernel.setObj stream (some (.diskStream { value with pos := pos }))) := by
    intro kernel value present
    have loaded : (load Obj.diskStream? stream).run kernel = .ok (value, kernel) :=
      load_of_obj present rfl
    rw [diskstreamerSeek, Exec.bind_of_ok loaded,
      Exec.bind_of_ok (store_of_live (by rw [present]; rfl)), Exec.run_pure]
  cases here : (kernel.objs stream).bind Obj.diskStream? with
  | none =>
      refine .inl ⟨_, stopped here, stopped ?_⟩
      rcases alike.objs stream visible with same | ⟨_, before, _, present, _, _⟩
      · rw [same, here]
      · rw [present] at here
        cases here
  | some value =>
      obtain ⟨contents, present, typed⟩ := Option.bind_eq_some_iff.mp here
      cases contents <;> cases typed
      obtain ⟨after, there, disk⟩ : ∃ after, other.objs stream = some (.diskStream after) ∧
          after.disk = value.disk := by
        rcases alike.objs stream visible with same | ⟨_, before, after, present', there, disk⟩
        · exact ⟨value, same.trans present, rfl⟩
        · rw [present] at present'
          cases present'
          exact ⟨after, there, disk⟩
      refine .inr ⟨_, _, _, moved present, moved there, rfl, ?_⟩
      have same : ({ after with pos := pos } : DiskStream) = { value with pos := pos } := by
        cases after
        cases value
        cases disk
        rfl
      rw [same]
      exact alike.setObj (alike.notKept scene present) _

theorem copyBuffer_coupled (buf : List UInt8) (count : Nat) : ∀ index,
    Coupled (Alike start kept hidden synced) (copyBuffer buf count index) fun _ =>
      Alike start kept hidden synced := by
  induction count with
  | zero => exact fun _ => .pure fun _ _ => id
  | succ count ih =>
      exact fun index => .bind (.demand (fun _ _ _ => rfl) fun _ _ _ alike _ => alike) fun _ =>
        .bind (ih _) fun _ => .pure fun _ _ => id

theorem diskReadBlock_coupled (idisk : DiskPtr) (lba : Nat) (total : Int) :
    Coupled (Alike start kept hidden synced) (diskReadBlock idisk lba total) fun _ =>
      Alike start kept hidden synced :=
  .ite (fun _ => .pure fun _ _ => id) fun _ =>
    .bind (.read (fun _ _ alike => by rw [alike.globals]) fun _ _ alike => alike) fun _ =>
      .pure fun _ _ => id

/-- A stream that is at the same position in both. -/
theorem loadSynced_coupled {stream : Nat} (visible : ¬ hidden stream) (here : synced stream) :
    Coupled (Alike start kept hidden synced) (load Obj.diskStream? stream)
      fun value kernel other => kernel.objs stream = some (.diskStream value) ∧
        Alike start kept hidden synced kernel other := by
  refine .demand (fun kernel other alike => ?_) fun kernel other value alike present => ?_
  · rw [(alike.objs stream visible).resolve_right fun moved => moved.1 here]
  · obtain ⟨contents, present, typed⟩ := Option.bind_eq_some_iff.mp present
    cases contents <;> cases typed
    exact ⟨present, alike⟩

/-- **Reading a stream** that is at the same position in both. -/
theorem diskstreamerReadCalls_coupled (scene : Scene start volume kept hidden) {stream : Nat}
    (visible : ¬ hidden stream) (here : synced stream) (calls : Nat) : ∀ total,
    Coupled (Alike start kept hidden synced) (diskstreamerReadCalls stream calls total) fun _ =>
      Alike start kept hidden synced := by
  induction calls with
  | zero => exact fun _ => .fault _
  | succ calls ih =>
      intro total
      refine (loadSynced_coupled visible here).bind fun value => ?_
      refine (Coupled.mono (diskReadBlock_coupled _ _ _) (fun _ _ => And.right)
        fun _ _ _ => id).bind fun sector => .ite (fun _ => .pure fun _ _ => id) fun _ => ?_
      refine (copyBuffer_coupled _ _ _).bind fun copied => ?_
      refine (loadSynced_coupled visible here).bind fun value => ?_
      have stored : Coupled (fun kernel other => kernel.objs stream = some (.diskStream value) ∧
          Alike start kept hidden synced kernel other)
          (store stream (.diskStream { value with pos := i32 (value.pos + if total >
            peachosSectorSize then (peachosSectorSize : Int) else total) }))
          fun _ => Alike start kept hidden synced := by
        rintro kernel other ⟨present, alike⟩
        have there := (alike.objs stream visible).resolve_right fun moved => moved.1 here
        exact .inr ⟨(), _, _, store_of_live (by rw [present]; rfl),
          store_of_live (by rw [there, present]; rfl),
          (alike.setObj (alike.notKept scene present) _).fewer fun _ => .inr⟩
      refine stored.bind fun _ => .ite (fun _ => ?_) fun _ => .pure fun _ _ => id
      exact (ih _).bind fun _ => .pure fun _ _ => id

theorem diskstreamerRead_coupled (scene : Scene start volume kept hidden) {stream : Nat}
    (visible : ¬ hidden stream) (here : synced stream) (total : Int) :
    Coupled (Alike start kept hidden synced) (diskstreamerRead stream total) fun _ =>
      Alike start kept hidden synced :=
  diskstreamerReadCalls_coupled scene visible here _ _

/-- A lookup in the table seeks before it reads. -/
theorem fat16GetFatEntry_coupled (scene : Scene start volume kept hidden) (cluster : Int) :
    Coupled (Alike start kept hidden Unsynced) (fat16GetFatEntry diskstreamerRead cluster)
      fun _ => Alike start kept hidden Unsynced := by
  refine (loadPrivate_coupled scene).after fun value same => ?_
  subst same
  have visible := scene.streams value.fatReadStream (List.mem_cons_of_mem _ List.mem_cons_self)
  refine readDisk_coupled.after fun disk _ => .ite (fun _ => .pure fun _ _ => id) fun _ => ?_
  refine (diskstreamerSeek_coupled scene visible _).after fun res _ => ?_
  refine .ite (fun _ => .pure fun _ _ => Alike.unsynced) fun _ => ?_
  refine (diskstreamerRead_coupled scene visible (.inl rfl) _).bind fun result => ?_
  exact .ite (fun _ => .pure fun _ _ => Alike.unsynced) fun _ => .pure fun _ _ => Alike.unsynced

theorem fat16GetClusterLoop_coupled (scene : Scene start volume kept hidden) (ahead : Nat) :
    ∀ cluster, Coupled (Alike start kept hidden Unsynced)
      (fat16GetClusterLoop diskstreamerRead ahead cluster)
        fun _ => Alike start kept hidden Unsynced := by
  induction ahead with
  | zero => exact fun _ => .pure fun _ _ => id
  | succ ahead ih =>
      exact fun cluster => (fat16GetFatEntry_coupled scene cluster).bind fun entry =>
        .ite (fun _ => .pure fun _ _ => id) fun _ => ih entry

theorem fat16GetClusterForOffset_coupled (scene : Scene start volume kept hidden)
    (cluster offset : Int) : Coupled (Alike start kept hidden Unsynced)
      (fat16GetClusterForOffset diskstreamerRead cluster offset)
        fun _ => Alike start kept hidden Unsynced :=
  (loadPrivate_coupled scene).after fun _ _ => readDisk_coupled.after fun _ _ =>
    (divide_coupled _ _).bind fun _ => fat16GetClusterLoop_coupled scene _ _

theorem fat16ReadInternalCalls_coupled (scene : Scene start volume kept hidden) {stream : Nat}
    (visible : ¬ hidden stream) (cluster : Int) (calls : Nat) : ∀ offset total,
    Coupled (Alike start kept hidden Unsynced)
      (fat16ReadInternalCalls diskstreamerRead stream cluster calls offset total)
        fun _ => Alike start kept hidden Unsynced := by
  induction calls with
  | zero => exact fun _ _ => .fault _
  | succ calls ih =>
      intro offset total
      refine (loadPrivate_coupled scene).after fun _ _ => readDisk_coupled.after fun _ _ => ?_
      refine (fat16GetClusterForOffset_coupled scene _ _).bind fun clusterToUse => ?_
      refine .ite (fun _ => .pure fun _ _ => id) fun _ => ?_
      refine (remainder_coupled _ _).bind fun _ => ?_
      refine (diskstreamerSeek_coupled scene visible _).after fun res _ => ?_
      refine .ite (fun _ => .pure fun _ _ => Alike.unsynced) fun _ => ?_
      refine (diskstreamerRead_coupled scene visible (.inl rfl) _).bind fun result => ?_
      refine .ite (fun _ => .pure fun _ _ => Alike.unsynced) fun _ => ?_
      refine .ite (fun _ => ?_) fun _ => .pure fun _ _ => Alike.unsynced
      exact ((ih _ _).mono (fun _ _ => Alike.unsynced) fun _ _ _ => id).bind fun _ => .pure fun _ _ => id

/-- **Reading from the disk** is the same wherever the streams are. -/
theorem fat16ReadInternal_coupled (scene : Scene start volume kept hidden)
    (cluster offset total : Int) : Coupled (Alike start kept hidden Unsynced)
      (fat16ReadInternal diskstreamerRead cluster offset total)
        fun _ => Alike start kept hidden Unsynced := by
  refine (loadPrivate_coupled scene).after fun value same => ?_
  subst same
  exact fat16ReadInternalCalls_coupled scene (scene.streams _ List.mem_cons_self) _ _ _ _

/-- An object that is not kept is written in both. -/
theorem store_coupled {ptr : Nat} (visible : ¬ hidden ptr) (free : ¬ kept ptr) (contents : Obj) :
    Coupled (fun kernel other => (kernel.objs ptr).isSome ∧
      Alike start kept hidden synced kernel other) (store ptr contents)
        fun _ => Alike start kept hidden synced := by
  rintro kernel other ⟨live, alike⟩
  have live' : (other.objs ptr).isSome := by
    rcases alike.objs ptr visible with same | ⟨_, _, after, _, there, _⟩
    · rwa [same]
    · rw [there]
      rfl
  exact .inr ⟨(), _, _, store_of_live live, store_of_live live',
    (alike.setObj free contents).fewer fun _ => .inr⟩

/-- Bytes are written to a buffer that is not kept. -/
theorem writeBytes_coupled {ptr : Nat} (visible : ¬ hidden ptr) (free : ¬ kept ptr) (offset : Nat)
    (raw : List UInt8) : Coupled (Alike start kept hidden synced) (writeBytes ptr offset raw)
      fun _ => Alike start kept hidden synced := by
  refine (load_coupled visible fun _ => rfl).bind fun contents => .ite (fun _ => ?_) fun _ =>
    .fault _
  refine (store_coupled visible free _).mono ?_ fun _ _ _ => id
  rintro kernel other ⟨⟨_, present, _⟩, alike⟩
  exact ⟨by rw [present]; rfl, alike⟩

theorem fat16ReadLoop_coupled (scene : Scene start volume kept hidden) {item out : Nat}
    (held : kept item) (visible : ¬ hidden out) (free : ¬ kept out) (size count : Nat) :
    ∀ offset outOffset, Coupled (Alike start kept hidden Unsynced)
      (fat16ReadLoop diskstreamerRead item size out count offset outOffset)
        fun _ => Alike start kept hidden Unsynced := by
  induction count with
  | zero => exact fun _ _ => .pure fun _ _ => id
  | succ count ih =>
      intro offset outOffset
      have loaded := (@load_coupled start kept hidden Unsynced _ Obj.bytes? item
        (scene.visible _ held) fun _ => rfl).mono (fun _ _ => id) fun _ _ _ => And.right
      refine loaded.bind fun entry => ?_
      refine (fat16ReadInternal_coupled scene _ _ _).bind fun result => ?_
      refine (writeBytes_coupled visible free _ _).bind fun _ => ?_
      exact .ite (fun _ => .pure fun _ _ => id) fun _ => ih _ _

end Reads

end Peachos
