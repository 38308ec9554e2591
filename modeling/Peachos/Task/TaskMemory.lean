import Peachos.Memory.PageLife
import Peachos.Task.Task

/-! # The memory of a task

A task owns its `struct task` and its page directory. A completed `task_new` made both in fresh
memory before it touched the list of tasks (`taskNew_completed`), and it gets there while its
blocks are free (`taskNew_packed`).
-/

namespace Peachos

open CInt

/-- The flags of the page directory of a task. -/
abbrev taskPageFlags : Nat := pagingIsPresent ||| pagingAccessFromAll

theorem taskPageFlags_small : taskPageFlags < pagingPageSize := by decide

/-- The objects of a task. -/
structure TaskMemory where
  task : Nat
  tables : PageTables

def TaskMemory.owns (memory : TaskMemory) (ptr : Nat) : Prop :=
  ptr = memory.task ∨ memory.tables.owns ptr

/-- The objects of a task with their contents. -/
structure TaskHolds (memory : TaskMemory) (value : Task) (pages : Nat → Nat) (kernel : Kernel) :
    Prop where
  task : kernel.objs memory.task = some (.task value)
  pageDirectory : value.pageDirectory = memory.tables.chunk
  map : PageMap memory.tables taskPageFlags pages kernel

theorem TaskHolds.of_kept {memory : TaskMemory} {value : Task} {pages : Nat → Nat}
    {kernel next : Kernel} (holds : TaskHolds memory value pages kernel)
    (kept : ∀ ptr, memory.owns ptr → next.objs ptr = kernel.objs ptr) :
    TaskHolds memory value pages next where
  task := (kept _ (.inl rfl)).trans holds.task
  pageDirectory := holds.pageDirectory
  map := holds.map.of_kept fun ptr own => kept ptr (.inr own)

/-- The task that `task_init` makes. -/
def Task.initial (pageDirectory process : Nat) : Task where
  pageDirectory := pageDirectory
  registers := {
    ip := peachosProgramVirtualAddress
    ss := userDataSegment
    cs := userCodeSegment
    esp := peachosProgramVirtualStackAddressStart }
  process := process

section New

variable {region : KernelRegion} {live : List Allocation} {kernel : Kernel}

/-- There is no task at the null pointer to free. -/
theorem taskFree_null (inv : KernelInvariant region live kernel) {res : Int} {next : Kernel}
    (run : (taskFree 0).run kernel = .ok (res, next)) : False := by
  obtain ⟨_, _, present, _⟩ := load_bind_eq_ok.mp run
  rw [inv.null] at present
  cases present

/-- A completed `task_init` gave the task its page directory and its registers. -/
theorem taskInit_completed {live' : List Allocation} {start middle : Kernel} {task process : Nat}
    (extended : Extended region live live' start kernel fun ptr => ptr = task) {res : Int}
    (run : (taskInit task process).run kernel = .ok (res, middle)) :
    ∃ live'' memory, memory.task = task ∧ res = 0 ∧
      Extended region live live'' start middle memory.owns ∧
      TaskHolds memory (.initial memory.tables.chunk process) (identityPages taskPageFlags)
        middle ∧
      ∃ value, middle.objs process = some (.process value) := by
  obtain ⟨_, run₁⟩ := store_bind_eq_ok.mp run
  obtain ⟨chunk, mapped, new, run₂⟩ := Exec.bind_eq_ok.mp run₁
  obtain ⟨contents, value, taskHere, typed, run₃⟩ := load_bind_eq_ok.mp run₂
  obtain ⟨_, run₄⟩ := store_bind_eq_ok.mp run₃
  have cleared := extended.setObj rfl (.task {})
  obtain ⟨live'', tables, rfl, notNull, extended', map⟩ := pagingNew4gb_spec cleared.invariant new
  obtain ⟨allocation, member, rfl⟩ := cleared.held task rfl
  have kept := extended'.kept allocation member
  rw [Kernel.setObj_objs_self, taskHere] at kept
  obtain rfl := Option.some.inj kept
  cases typed
  rw [if_neg notNull] at run₄
  obtain ⟨contents, found, processHere, processTyped, run₅⟩ := load_bind_eq_ok.mp run₄
  obtain ⟨contents', value, taskThere, typed', run₆⟩ := load_bind_eq_ok.mp run₅
  obtain ⟨_, run₇⟩ := store_bind_eq_ok.mp run₆
  cases run₇
  rw [Kernel.setObj_objs_self] at taskThere
  cases taskThere
  cases typed'
  have outside : ∀ ptr, tables.owns ptr → ptr ≠ allocation.ptr := fun ptr own same =>
    extended'.fresh allocation member (same ▸ own)
  have processApart : process ≠ allocation.ptr := by
    rintro rfl
    rw [Kernel.setObj_objs_self] at processHere
    cases processHere
    cases processTyped
  refine ⟨live'', ⟨allocation.ptr, tables⟩, rfl, rfl,
    (((cleared.trans extended').setObj (.inl rfl) (.task _)).setObj (.inl rfl) (.task _)).congr
      fun ptr => Iff.rfl, ⟨?_, rfl, map.of_kept fun ptr own => ?_⟩, found, ?_⟩
  · exact Kernel.setObj_objs_self ..
  · rw [Kernel.setObj_objs_of_ne _ _ (outside ptr own),
      Kernel.setObj_objs_of_ne _ _ (outside ptr own)]
  · cases contents <;> cases processTyped
    rw [Kernel.setObj_objs_of_ne _ _ processApart]
    exact processHere

/-- **`task_new`.** A completed call made the task in fresh memory and then appended it to the
list of tasks. -/
theorem taskNew_completed (inv : KernelInvariant region live kernel) {task process : Nat}
    {next : Kernel} (run : (taskNew process).run kernel = .ok (task, next)) :
    ∃ live' memory middle, memory.task = task ∧
      Extended region live live' kernel middle memory.owns ∧
      TaskHolds memory (.initial memory.tables.chunk process) (identityPages taskPageFlags)
        middle ∧
      (∃ value, middle.objs process = some (.process value)) ∧
      (taskListAppend task).run middle = .ok ((), next) := by
  obtain ⟨ptr, allocated, alloc, run₁⟩ := Exec.bind_eq_ok.mp run
  rcases kmalloc_positive inv (by decide) (by decide) alloc with ⟨rfl, rfl⟩ | placed
  · rw [if_pos rfl] at run₁
    obtain ⟨_, _, freed, _⟩ := Exec.bind_eq_ok.mp run₁
    exact (taskFree_null inv freed).elim
  · rw [if_neg placed.notNull] at run₁
    obtain ⟨res, middle, init, run₂⟩ := Exec.bind_eq_ok.mp run₁
    obtain ⟨live', memory, rfl, rfl, extended, holds, process⟩ := taskInit_completed
      (((Extended.refl inv).placed placed).congr fun ptr => iff_of_eq (or_false _)) init
    rw [if_neg (by decide)] at run₂
    obtain ⟨_, _, append, done⟩ := Exec.bind_eq_ok.mp run₂
    cases done
    exact ⟨live', memory, middle, rfl, extended, holds, process, append⟩

end New

section Progress

variable {region : KernelRegion} {supplies : List Allocation → Kernel → Nat → Prop}
  {live : List Allocation} {kernel : Kernel} {left : Nat}

/-- The number of blocks of a task. -/
def taskBlocks : Nat := 1 + pagingBlocks

/-- **Blocks for the page directory of a task.** -/
theorem taskInit_supplied (supply : Supply region supplies) {task process : Allocation}
    (supplied : supplies live kernel (left + pagingBlocks)) (taskLive : task ∈ live)
    (processLive : process ∈ live) {value : Process}
    (processHere : kernel.objs process.ptr = some (.process value))
    (apart : process.ptr ≠ task.ptr) :
    ∃ live' middle, (taskInit task.ptr process.ptr).run kernel = .ok (0, middle) ∧
      supplies live' middle left := by
  have taskHere := (supply.invariant supplied).held task taskLive
  have cleared := supply.writes supplied (@WritesOnly.setObj (fun _ => True) _ _ trivial taskHere
    (.task {}))
  obtain ⟨chunk, live', mapped, new, supplied'⟩ :=
    @pagingNew4gb_supplied _ taskPageFlags _ supply _ _ _ cleared
  obtain ⟨_, tables, rfl, notNull, extended, _⟩ :=
    pagingNew4gb_spec (supply.invariant cleared) new
  have taskKept : mapped.objs task.ptr = some (.task {}) :=
    (extended.kept task taskLive).trans (Kernel.setObj_objs_self ..)
  have processKept : mapped.objs process.ptr = some (.process value) := by
    rw [extended.kept process processLive, Kernel.setObj_objs_of_ne _ _ apart, processHere]
  have taskStill : (mapped.objs task.ptr).isSome := by
    rw [taskKept]
    rfl
  have directed := supply.writes supplied' (@WritesOnly.setObj (fun _ => True) _ _ trivial
    taskStill (.task { pageDirectory := tables.chunk }))
  have written : ∀ contents, ((mapped.setObj task.ptr (some contents)).objs task.ptr).isSome := by
    intro contents
    rw [Kernel.setObj_objs_self]
    rfl
  have loadedTask : (load Obj.task? task.ptr).run mapped = .ok (_, mapped) :=
    load_of_obj taskKept rfl
  have loadedProcess : ∀ contents, (load Obj.process? process.ptr).run
      (mapped.setObj task.ptr contents) = .ok (value, mapped.setObj task.ptr contents) := by
    intro contents
    have here : (mapped.setObj task.ptr contents).objs process.ptr = some (.process value) := by
      rw [Kernel.setObj_objs_of_ne _ _ apart, processKept]
    exact load_of_obj here rfl
  have reloadedTask : ∀ value, (load Obj.task? task.ptr).run
      (mapped.setObj task.ptr (some (.task value))) =
        .ok (value, mapped.setObj task.ptr (some (.task value))) :=
    fun value => load_of_obj (Kernel.setObj_objs_self ..) rfl
  refine ⟨live', _, ?_, supply.writes directed (@WritesOnly.setObj (fun _ => True) _ _ trivial
    (written _) (.task (.initial tables.chunk process.ptr)))⟩
  rw [taskInit, Exec.bind_of_ok (store_of_live taskHere), Exec.bind_of_ok new,
    Exec.bind_of_ok loadedTask, Exec.bind_of_ok (store_of_live taskStill), if_neg notNull,
    Exec.bind_of_ok (loadedProcess _), Exec.bind_of_ok (reloadedTask _),
    Exec.bind_of_ok (store_of_live (written _)), Exec.run_pure]
  rfl

/-- A completed `task_new` found its blocks free. -/
theorem taskNew_blocks {task process : Nat} {next : Kernel}
    (inv : KernelInvariant region live kernel)
    (run : (taskNew process).run kernel = .ok (task, next)) :
    taskBlocks ≤ kernel.heap.freeBlocks := by
  obtain ⟨ptr, allocated, alloc, run₁⟩ := Exec.bind_eq_ok.mp run
  rcases kmalloc_positive inv (by decide) (by decide) alloc with ⟨rfl, rfl⟩ | placed
  · rw [if_pos rfl] at run₁
    obtain ⟨_, _, freed, _⟩ := Exec.bind_eq_ok.mp run₁
    exact (taskFree_null inv freed).elim
  · rw [if_neg placed.notNull] at run₁
    obtain ⟨_, middle, init, _⟩ := Exec.bind_eq_ok.mp run₁
    obtain ⟨present, run₂⟩ := store_bind_eq_ok.mp init
    obtain ⟨_, _, new, _⟩ := Exec.bind_eq_ok.mp run₂
    have enough := pagingNew4gb_blocks (placed.invariant.setObj present (.task {})) new
    have taken := placed.freeBlocks inv
    rw [show blocksFor sizeofTask = 1 by decide] at taken
    change pagingBlocks ≤ allocated.heap.freeBlocks at enough
    unfold taskBlocks
    omega

end Progress

end Peachos
