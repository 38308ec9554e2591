import Peachos.Fs.DirectoryCalls
import Peachos.Fs.FileOpen

/-! # Runs of opening and closing

In every run of `fopen` and `fclose` that closes no directory without entries and asks for no mode
to write, the descriptors of the table have the numbers of their slots and no call changes what is
open at another number (`tableRun_keeps`). The directory without entries is kept in a block that
the heap has not given to it: closing it frees the block of another file (`tableRun_crossed`).
-/

namespace Peachos

open CInt

/-- The calls that change the table. -/
inductive TableCall where
  | fopen (filename modeStr : List UInt8)
  | fclose (fd : Int)

namespace TableCall

def perform (read : StreamRead) : TableCall → K Int
  | .fopen filename modeStr => Peachos.fopen read filename modeStr
  | .fclose fd => Peachos.fclose fd

/-- A path that resolves, or a positive number. -/
def Given (read : StreamRead) (kernel : Kernel) : TableCall → Prop
  | .fopen filename _ => ∃ parsed made root first descriptor,
      ResolvesTo read kernel parsed made filename root first descriptor
  | .fclose fd => 1 ≤ fd

/-- The mode is not one to write, and no directory without entries is closed. -/
def Safe (kernel : Kernel) : TableCall → Prop
  | .fopen _ modeStr => fileGetModeByString modeStr ≠ fileModeWrite ∧
      fileGetModeByString modeStr ≠ fileModeAppend
  | .fclose fd => ¬ ClosesEmpty kernel fd

/-- A number that is returned is new and the lowest free one, and what is open at other numbers is
as before. -/
structure Behaves (call : TableCall) (kernel next : Kernel) (res : Int) : Prop where
  opens : ∀ filename modeStr, call = .fopen filename modeStr → res ≠ 0 →
    ∃ index desc, res = (index + 1 : Nat) ∧ LowestFree kernel.fileDescriptors index ∧ desc ≠ 0 ∧
      next.fileDescriptors[index]? = some desc ∧
      ∀ other view, fileView kernel other = some view → view.descriptor.index ≠ res
  others : KeepsFiles kernel next fun index => call = .fclose (index + 1 : Nat)

end TableCall

/-- The runs of calls that are allowed. -/
inductive TableRun (read : StreamRead) (allowed : Kernel → TableCall → Prop) (start : Kernel) :
    Kernel → Prop
  | start : TableRun read allowed start start
  | call {kernel next : Kernel} {call : TableCall} {res : Int}
      (before : TableRun read allowed start kernel) (may : allowed kernel call)
      (run : (call.perform read).run kernel = .ok (res, next)) : TableRun read allowed start next

/-- Every descriptor of the table has the number of its slot. -/
def Numbered (kernel : Kernel) : Prop :=
  ∀ index desc, desc ≠ 0 → kernel.fileDescriptors[index]? = some desc →
    ∃ view, fileView kernel index = some view ∧ view.descriptor.index = (index + 1 : Nat)

section Runs

variable {region : KernelRegion} {live : List Allocation} {start kernel : Kernel}
  {volume : FatPrivate} {records : List FileRecord} {read : StreamRead}

/-- Nothing is open at a slot that is null. -/
theorem FileTable.number_ne (table : FileTable region live volume kernel records) {index : Nat}
    (free : kernel.fileDescriptors[index]? = some 0) {other : Nat} {view : FileView}
    (opened : fileView kernel other = some view) : view.descriptor.index ≠ (index + 1 : Nat) := by
  intro same
  have opened' := opened
  unfold fileView at opened'
  obtain ⟨desc, here, rest⟩ := Option.bind_eq_some_iff.mp opened'
  obtain ⟨descriptor, present, _⟩ := Option.bind_eq_some_iff.mp rest
  have notNull : desc ≠ 0 := by
    rintro rfl
    rw [table.invariant.null] at present
    cases present
  obtain ⟨view', opened'', number⟩ := table.numbered notNull here
  rw [opened] at opened''
  cases opened''
  obtain rfl : other = index := by omega
  rw [here] at free
  exact notNull (Option.some.inj free)

/-- **One call.** -/
theorem tableCall_keeps (reads : ReadsStreams read)
    (table : FileTable region live volume kernel records) {call : TableCall}
    (given : call.Given read kernel) (safe : call.Safe kernel) :
    ∃ res next live' left, (call.perform read).run kernel = .ok (res, next) ∧
      FileTable region live' volume next left ∧ call.Behaves kernel next res := by
  cases call with
  | fclose fd =>
      obtain ⟨res, live', next, left, run, table', keeps⟩ := fclose_keeps table given safe
      refine ⟨res, next, live', left, run, table', ⟨nofun, fun index desc untouched => ?_⟩⟩
      exact keeps index desc fun same =>
        untouched (congrArg TableCall.fclose same.symm)
  | fopen filename modeStr =>
      obtain ⟨parsed, made, root, first, descriptor, resolves⟩ := given
      have unopened : ∀ {next : Kernel} {live' : List Allocation} {own : Nat → Prop},
          Grown region live live' kernel next own →
          FileTable region live' volume next records ∧
            (TableCall.fopen filename modeStr).Behaves kernel next 0 := by
        intro next live' own grown
        refine ⟨table.grown grown, fun _ _ _ notNull => absurd rfl notNull, ?_⟩
        refine table.keepsFiles table.toFilesHeld (fun _ member _ => member) grown rfl
          fun index _ => ?_
        rw [grown.globals]
      rcases fileGetModeByString_cases safe.1 safe.2 with reading | invalid
      swap
      · obtain ⟨live', next, own, run, grown⟩ := fopen_invalid table resolves invalid
        exact ⟨0, next, live', records, run, unopened grown⟩
      by_cases free : 0 ∈ kernel.fileDescriptors
      · obtain ⟨index, slot⟩ := exists_lowestFree free
        obtain ⟨live', next, desc, left, run, table', keeps, notNull, here⟩ :=
          fopen_free reads table resolves reading slot
        refine ⟨_, next, live', left, run, table', fun _ _ _ _ => ?_, fun other found _ =>
          keeps other found id⟩
        exact ⟨index, desc, rfl, slot, notNull, here, fun other view => table.number_ne slot.free⟩
      · obtain ⟨live', next, own, run, grown⟩ := fopen_full reads table resolves reading free
        exact ⟨0, next, live', records, run, unopened grown⟩

/-- Every run of safe calls keeps the table. -/
theorem tableRun_table (reads : ReadsStreams read)
    (table : FileTable region live volume start records)
    (run : TableRun read (fun kernel call => call.Given read kernel ∧ call.Safe kernel) start
      kernel) : ∃ live' left, FileTable region live' volume kernel left := by
  induction run with
  | start => exact ⟨live, records, table⟩
  | call _ may performed ih =>
      obtain ⟨live', left, table'⟩ := ih
      obtain ⟨_, _, live'', left', run, table'', _⟩ := tableCall_keeps reads table' may.1 may.2
      rw [performed] at run
      cases run
      exact ⟨live'', left', table''⟩

/-- The table before the first call. -/
theorem fileTable_empty (inv : KernelInvariant region live start)
    (root : RootLive live volume start) (mounted : start.disk.filesystem = some .fat16)
    (empty : start.fileDescriptors = List.replicate peachosMaxFileDescriptors 0) :
    FileTable region live volume start [] where
  root := root
  filesystem := mounted
  holds := fun _ member => absurd member List.not_mem_nil
  owned := .nil
  apart := fun _ member => absurd member List.not_mem_nil
  invariant := inv
  size := by rw [empty, List.length_replicate]
  slots := by
    intro index desc notNull
    rw [empty, List.getElem?_replicate]
    simp only [List.not_mem_nil, false_and, exists_false, iff_false]
    split
    · exact fun here => notNull (Option.some.inj here).symm
    · exact nofun

/-- **Runs of opening and closing.** After safe calls the descriptors have the numbers of their
slots, and every further safe call completes, returns the lowest free number and leaves the other
files as they are. -/
theorem tableRun_keeps (reads : ReadsStreams read) (inv : KernelInvariant region live start)
    (root : RootLive live volume start) (mounted : start.disk.filesystem = some .fat16)
    (empty : start.fileDescriptors = List.replicate peachosMaxFileDescriptors 0)
    (run : TableRun read (fun kernel call => call.Given read kernel ∧ call.Safe kernel) start
      kernel) :
    Numbered kernel ∧ ∀ call : TableCall, call.Given read kernel → call.Safe kernel →
      ∃ res next, (call.perform read).run kernel = .ok (res, next) ∧
        call.Behaves kernel next res := by
  obtain ⟨live', left, table⟩ := tableRun_table reads (fileTable_empty inv root mounted empty) run
  refine ⟨fun index desc => table.numbered, fun call given safe => ?_⟩
  obtain ⟨res, next, _, _, performed, _, behaves⟩ := tableCall_keeps reads table given safe
  exact ⟨res, next, performed, behaves⟩

end Runs

/-- Whether `filename` resolves, by the calls that `fopen` makes. -/
def resolves (filename : List UInt8) : K Bool := do
  let root ← pathparserParse filename
  let path ← load Obj.pathRoot? root
  let descriptor ← fat16Open diskstreamerRead path.first fileModeRead
  let opened ← load Obj.fatFileDescriptor? descriptor
  let item ← load Obj.fatItem? opened.item
  let whole ← Exec.read fun kernel => (kernel.objs item.pointer).isSome
  let desc ← kmalloc sizeofFileDescriptor (.fileDescriptor {})
  pure (decide (root ≠ 0 ∧ path.driveNo = 0 ∧ path.first ≠ 0 ∧ isErr descriptor = false ∧
    whole = true ∧ desc ≠ 0))

/-- What a program returns, if it completes; it is not carried out. -/
def foreseen {α : Type} (program : K α) : K (Option α) := Exec.of fun kernel =>
  .ok ((program.run kernel).toOption.map Prod.fst, kernel)

theorem foreseen_run {α : Type} (program : K α) (kernel : Kernel) : (foreseen program).run kernel =
    .ok ((program.run kernel).toOption.map Prod.fst, kernel) := rfl

theorem exists_of_foreseen {α : Type} {program : K α} {kernel : Kernel} {value : α}
    (foresees : (program.run kernel).toOption.map Prod.fst = some value) :
    ∃ final, program.run kernel = .ok (value, final) := by
  cases done : program.run kernel with
  | error fault =>
      rw [done] at foresees
      cases foresees
  | ok pair =>
      rw [done] at foresees
      cases foresees
      exact ⟨pair.2, rfl⟩

theorem given_of_resolves {filename : List UInt8} {kernel final : Kernel}
    (run : (resolves filename).run kernel = .ok (true, final)) (modeStr : List UInt8) :
    (TableCall.fopen filename modeStr).Given diskstreamerRead kernel := by
  obtain ⟨root, parsed, parse, run⟩ := Exec.bind_eq_ok.mp run
  obtain ⟨rootHere, ⟨drive, first⟩, present, typed, run⟩ := load_bind_eq_ok.mp run
  obtain ⟨descriptor, made, opening, run⟩ := Exec.bind_eq_ok.mp run
  obtain ⟨_, opened, opens, typed', run⟩ := load_bind_eq_ok.mp run
  obtain ⟨_, item, leads, typed'', run⟩ := load_bind_eq_ok.mp run
  obtain ⟨_, _, read, run⟩ := Exec.bind_eq_ok.mp run
  cases read
  obtain ⟨desc, last, requested, run⟩ := Exec.bind_eq_ok.mp run
  obtain ⟨found, rfl, notEmpty, succeeds, whole, notNull⟩ :=
    of_decide_eq_true (congrArg Prod.fst (Except.ok.inj run))
  cases rootHere with
  | pathRoot value =>
      cases typed
      refine ⟨parsed, made, root, first, descriptor, parse, found, present, notEmpty, opening,
        succeeds, fun value item' here leads' => ?_, fun _ => ⟨desc, last, requested, notNull⟩⟩
      rw [opens] at here
      cases here
      cases typed'
      rw [leads] at leads'
      cases leads'
      cases typed''
      exact whole
  | _ => cases typed

/-- Perform the calls, as long as each of them is given. -/
def performCalls : List TableCall → K Bool
  | [] => pure true
  | .fopen filename modeStr :: calls => do
      let given ← foreseen (resolves filename)
      let _ ← fopen diskstreamerRead filename modeStr
      let rest ← performCalls calls
      pure (given == some true && rest)
  | .fclose fd :: calls => do
      let _ ← fclose fd
      let rest ← performCalls calls
      pure (decide (1 ≤ fd) && rest)

theorem performCalls_run {allowed : Kernel → TableCall → Prop} {start : Kernel} :
    ∀ {calls : List TableCall} {kernel next : Kernel},
      (∀ call ∈ calls, ∀ kernel, call.Given diskstreamerRead kernel → allowed kernel call) →
      (performCalls calls).run kernel = .ok (true, next) →
      TableRun diskstreamerRead allowed start kernel →
      TableRun diskstreamerRead allowed start next := by
  intro calls
  induction calls with
  | nil =>
      intro kernel next _ run before
      cases run
      exact before
  | cons call calls ih =>
      intro kernel next may run before
      have rest := fun call member => may call (List.mem_cons_of_mem _ member)
      cases call with
      | fopen filename modeStr =>
          rw [performCalls, Exec.bind_of_ok (foreseen_run _ _)] at run
          obtain ⟨res, middle, performed, continued⟩ := Exec.bind_eq_ok.mp run
          obtain ⟨all, last, others, done⟩ := Exec.bind_eq_ok.mp continued
          obtain ⟨both, rfl⟩ := Prod.mk.inj (Except.ok.inj done)
          obtain ⟨given, rfl⟩ := Bool.and_eq_true_iff.mp both
          obtain ⟨final, resolved⟩ := exists_of_foreseen (beq_iff_eq.mp given)
          exact ih rest others (.call before
            (may _ List.mem_cons_self _ (given_of_resolves resolved modeStr)) performed)
      | fclose fd =>
          obtain ⟨res, middle, performed, continued⟩ := Exec.bind_eq_ok.mp run
          obtain ⟨all, last, others, done⟩ := Exec.bind_eq_ok.mp continued
          obtain ⟨both, rfl⟩ := Prod.mk.inj (Except.ok.inj done)
          obtain ⟨positive, rfl⟩ := Bool.and_eq_true_iff.mp both
          have given : 1 ≤ fd := of_decide_eq_true positive
          exact ih rest others (.call before (may _ List.mem_cons_self _ given) performed)

/-- A heap of 64 blocks. -/
def wideHeapRegion : KernelRegion where
  start := 0x04000000
  bytes := 262144
  startAligned := by decide
  bytesAligned := by decide
  below2GiB := by decide
  addressable := by decide
  notNull := by decide
  positive := by decide

/-- The kernel with that heap and a disk with the directory `E`, which has the entry `B`, the
directory `D`, which has none, and the file `F`. -/
def tableKernel : Kernel :=
  { freshKernel wideHeapRegion with
    drive := imageOf [(13, 1), (14, 1), (16, 1), (17, 4), (22, 1), (38, 0x29),
      (1024, 69), (1035, 0x10), (1050, 2), (1536, 66), (1056, 68), (1067, 0x10), (1082, 3),
      (1088, 70), (1114, 4)] }

/-- Opening `0:/` and a name of one letter to read. -/
def openLetter (letter : UInt8) : TableCall := .fopen [48, 58, 47, letter] [114]

/-- Ten blocks come free below an open file. `D` and `F` are then opened as 1 and 2. -/
def crossedCalls : List TableCall :=
  [openLetter 69, openLetter 69, openLetter 70, .fclose 1, .fclose 2, openLetter 68, openLetter 70]

/-- Mount the volume, make the calls and close 1: what was at 2 before, whether `F` resolves and
can be opened to write, and what is at 2 then. -/
def closeCrossed : K (List Bool) := do
  let _ ← fat16Resolve diskstreamerRead
  let given ← performCalls crossedCalls
  let slot ← Exec.read fun kernel => decide (kernel.fileDescriptors[1]?.getD 0 ≠ 0)
  let before ← Exec.read fun kernel => (fileView kernel 1).isSome
  let resolved ← foreseen (resolves [48, 58, 47, 70])
  let written ← foreseen (fopen diskstreamerRead [48, 58, 47, 70] [119])
  let res ← fclose 1
  let after ← Exec.read fun kernel => (fileView kernel 1).isSome
  pure [given, slot, before, resolved == some true, written.isNone, decide (res = 0), after]

theorem closeCrossed_run : (closeCrossed.run tableKernel).map Prod.fst =
    .ok [true, true, true, true, true, true, false] := by
  decide +kernel

/-- The entries of its root directory. -/
def tableEntries : List (List UInt8) := [
  69 :: List.replicate 10 0 ++ [0x10] ++ List.replicate 14 0 ++ [2] ++ List.replicate 5 0,
  68 :: List.replicate 10 0 ++ [0x10] ++ List.replicate 14 0 ++ [3] ++ List.replicate 5 0,
  70 :: List.replicate 25 0 ++ [4] ++ List.replicate 5 0]

/-- That volume can be mounted, whatever is open. -/
theorem tableKernel_ready (table : List Nat) : ∃ live start volume,
    (fat16Resolve diskstreamerRead).run { tableKernel with fileDescriptors := table } =
        .ok (0, start) ∧
      VolumeReady wideHeapRegion live volume start tableEntries ∧ RootLive live volume start ∧
      VolumeBounded volume start ∧ start.fileDescriptors = table := by
  obtain ⟨live, start, volume, mount, ready, header, _, _, globals⟩ := @fat16Resolve_run
    wideHeapRegion [] { tableKernel with fileDescriptors := table } 0 64
    ((freshKernel_invariant wideHeapRegion).of_same rfl rfl)
    (show tableKernel.heap.Room 0 64 from ⟨by decide, by decide⟩) rfl rfl
    (show (FatHeader.decode (Window.window tableKernel.drive 0 sizeofFatH)).signature = 0x29 by
      decide)
    tableEntries (show RootOnDisk
      { header := FatHeader.decode (Window.window tableKernel.drive 0 sizeofFatH) }
      tableKernel.drive tableEntries from ⟨by decide, by decide, by decide⟩)
    (show 0 + 5 + blocksFor (FatPrivate.rootSize
      { header := FatHeader.decode (Window.window tableKernel.drive 0 sizeofFatH) }) ≤ 64 by decide)
  refine ⟨live, start, volume, mount, ready, ⟨ready.mounted, ⟨_, ready.buffer⟩, ready.held⟩,
    ⟨ready.sectorSize, ?_, ?_, ?_⟩, by rw [globals]⟩
  · rw [header]
    exact show (FatHeader.decode
      (Window.window tableKernel.drive 0 sizeofFatH)).reservedSectors < 65536 by decide +kernel
  · rw [header]
    exact show (FatHeader.decode
      (Window.window tableKernel.drive 0 sizeofFatH)).sectorsPerCluster < 256 by decide +kernel
  · rw [ready.rootDirectory]
    exact Int.natCast_nonneg (volume.rootSector + (volume.rootSize + 511) / 512)

/-- Nothing is open. -/
theorem tableKernel_mounted : ∃ live start volume,
    (fat16Resolve diskstreamerRead).run tableKernel = .ok (0, start) ∧
      KernelInvariant wideHeapRegion live start ∧ RootLive live volume start ∧
      start.disk.filesystem = some .fat16 ∧
      start.fileDescriptors = List.replicate peachosMaxFileDescriptors 0 := by
  obtain ⟨live, start, volume, mount, ready, root, _, table⟩ :=
    tableKernel_ready (List.replicate peachosMaxFileDescriptors 0)
  exact ⟨live, start, volume, mount, ready.invariant, root, ready.filesystem, table⟩

/-- Mount the volume and open `F`: whether it resolves, and again after that. -/
def openTwice : K (List Bool) := do
  let _ ← fat16Resolve diskstreamerRead
  let given ← performCalls [openLetter 70]
  let again ← foreseen (resolves [48, 58, 47, 70])
  pure [given, again == some true]

theorem openTwice_run : (openTwice.run tableKernel).map Prod.fst = .ok [true, true] := by
  decide +kernel

/-- `F` is opened a second time. -/
theorem tableRun_keeps_opened : ∃ start kernel,
    (fat16Resolve diskstreamerRead).run tableKernel = .ok (0, start) ∧
      TableRun diskstreamerRead (fun kernel call => call.Given diskstreamerRead kernel ∧
        call.Safe kernel) start kernel ∧ Numbered kernel ∧
      ∃ res next, (fopen diskstreamerRead [48, 58, 47, 70] [114]).run kernel = .ok (res, next) ∧
        (openLetter 70).Behaves kernel next res := by
  obtain ⟨live, start, volume, mount, inv, root, mounted, empty⟩ := tableKernel_mounted
  obtain ⟨_, _, mount', evaluated⟩ := result_of_bind openTwice_run
  rw [mount] at mount'
  cases mount'
  obtain ⟨given, kernel, performed, evaluated⟩ := result_of_bind evaluated
  rw [Exec.bind_of_ok (foreseen_run _ _)] at evaluated
  have results := Except.ok.inj evaluated
  simp only [List.cons.injEq, beq_iff_eq, and_true] at results
  obtain ⟨rfl, foreseen⟩ := results
  obtain ⟨_, resolved⟩ := exists_of_foreseen foreseen
  have reads : (openLetter 70).Safe kernel := ⟨by decide, by decide⟩
  have run : TableRun diskstreamerRead (fun kernel call => call.Given diskstreamerRead kernel ∧
      call.Safe kernel) start kernel :=
    performCalls_run (fun call member _ given => ⟨given, by
      cases List.mem_singleton.mp member
      exact ⟨by decide, by decide⟩⟩) performed .start
  obtain ⟨numbered, next⟩ :=
    tableRun_keeps diskstreamerRead_readsStreams inv root mounted empty run
  exact ⟨start, kernel, mount, run, numbered, next _ (given_of_resolves resolved _) reads⟩

/-- **Closing a directory without entries.** The block of its entries is the descriptor of another
file, which is gone after that. Before, opening a file to write follows the pointer to an error. -/
theorem tableRun_crossed : ∃ live start volume kernel,
    KernelInvariant wideHeapRegion live start ∧ RootLive live volume start ∧
      start.disk.filesystem = some .fat16 ∧
      start.fileDescriptors = List.replicate peachosMaxFileDescriptors 0 ∧
      TableRun diskstreamerRead (fun kernel call => call.Given diskstreamerRead kernel) start
        kernel ∧
      (∃ next, (fclose 1).run kernel = .ok (0, next) ∧
        ¬ (TableCall.fclose 1).Behaves kernel next 0) ∧
      (openLetter 70).Given diskstreamerRead kernel ∧
      ¬ ∃ res next, (fopen diskstreamerRead [48, 58, 47, 70] [119]).run kernel =
        .ok (res, next) := by
  obtain ⟨live, start, volume, mount, inv, root, mounted, empty⟩ := tableKernel_mounted
  obtain ⟨_, _, mount', evaluated⟩ := result_of_bind closeCrossed_run
  rw [mount] at mount'
  cases mount'
  obtain ⟨given, kernel, performed, evaluated⟩ := result_of_bind evaluated
  rw [Exec.bind_of_ok (Exec.run_read _ _), Exec.bind_of_ok (Exec.run_read _ _),
    Exec.bind_of_ok (foreseen_run _ _), Exec.bind_of_ok (foreseen_run _ _)] at evaluated
  obtain ⟨res, next, closing, evaluated⟩ := result_of_bind evaluated
  rw [Exec.bind_of_ok (Exec.run_read _ _)] at evaluated
  have results := Except.ok.inj evaluated
  simp only [List.cons.injEq, beq_iff_eq, decide_eq_true_eq, and_true] at results
  obtain ⟨rfl, taken, opened, foreseen, stopped, rfl, gone⟩ := results
  obtain ⟨_, resolved⟩ := exists_of_foreseen foreseen
  refine ⟨live, start, volume, kernel, inv, root, mounted, empty,
    performCalls_run (fun _ _ _ given => given) performed .start,
    ⟨next, closing, fun behaves => ?_⟩,
    given_of_resolves resolved _, fun ⟨_, _, run⟩ => ?_⟩
  · obtain ⟨desc, here, notNull⟩ : ∃ desc, kernel.fileDescriptors[1]? = some desc ∧ desc ≠ 0 := by
      cases here : kernel.fileDescriptors[1]? with
      | none =>
          rw [here] at taken
          exact absurd rfl taken
      | some desc =>
          rw [here] at taken
          exact ⟨desc, rfl, taken⟩
    have same := (behaves.others 1 desc (fun same => absurd (TableCall.fclose.inj same) (by decide))
      notNull here).2
    rw [same, opened] at gone
    cases gone
  · rw [run] at stopped
    cases stopped

end Peachos
