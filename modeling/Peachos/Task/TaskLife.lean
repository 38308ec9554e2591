import Peachos.Task.TaskList

/-! # Creating and freeing tasks

Runs of `task_new` and `task_free`. While each `task_free` frees the last task, the list of
tasks stays as the calls describe it, and freeing any other live task breaks it
(`taskRun_sound`): the task after the removed one keeps its `prev` link to it.
-/

namespace Peachos

open CInt Links

/-- The tasks with the objects they own. -/
structure TaskState (region : KernelRegion) (live : List Allocation) (memories : List TaskMemory)
    (kernel : Kernel) : Prop where
  invariant : KernelInvariant region live kernel
  owned : Owned TaskMemory.owns live memories
  holds : ∀ memory ∈ memories, ∃ value pages, TaskHolds memory value pages kernel
  list : TaskList (memories.map TaskMemory.task) kernel

section State

variable {region : KernelRegion} {live : List Allocation} {memories : List TaskMemory}
  {kernel next : Kernel}

/-- The tasks stay in an extension. -/
theorem TaskState.extended (state : TaskState region live memories kernel)
    {live' : List Allocation} {new : Nat → Prop}
    (extended : Extended region live live' kernel next new) :
    TaskState region live' memories next where
  invariant := extended.invariant
  owned := state.owned.grow extended.grown
  holds := by
    intro memory member
    obtain ⟨value, pages, holds⟩ := state.holds memory member
    exact ⟨value, pages, holds.of_kept fun ptr own => state.owned.kept extended member own⟩
  list := by
    have globals := extended.globals
    refine state.list.of_kept (fun task member => ?_) (by rw [globals]) (by rw [globals])
      (by rw [globals])
    obtain ⟨memory, present, rfl⟩ := List.mem_map.mp member
    exact state.owned.kept extended present (.inl rfl)

/-- Writing a process leaves the tasks alone. -/
theorem TaskState.setProcess (state : TaskState region live memories kernel) {ptr : Nat}
    {old : Process} (here : kernel.objs ptr = some (.process old)) (value : Process) :
    TaskState region live memories (kernel.setObj ptr (some (.process value))) where
  invariant := by
    have present : (kernel.objs ptr).isSome := by
      rw [here]
      rfl
    exact (@WritesOnly.setObj (fun _ => True) _ _ trivial present _).invariant state.invariant
  owned := state.owned
  holds := by
    intro memory member
    obtain ⟨task, pages, holds⟩ := state.holds memory member
    exact ⟨task, pages, holds.setProcess here value⟩
  list := by
    refine state.list.of_kept (fun task listed => ?_) rfl rfl rfl
    obtain ⟨found, there⟩ := state.list.present task listed
    exact Kernel.setObj_objs_of_ne _ _ (Kernel.ne_of_objs there here nofun)

/-- Writing what a task holds besides its links and its page directory. -/
theorem TaskState.setTask (state : TaskState region live memories kernel) {task : Nat}
    {old value : Task} (here : kernel.objs task = some (.task old))
    (sameNext : value.next = old.next) (samePrev : value.prev = old.prev)
    (sameDirectory : value.pageDirectory = old.pageDirectory) :
    TaskState region live memories (kernel.setObj task (some (.task value))) where
  invariant := by
    have present : (kernel.objs task).isSome := by
      rw [here]
      rfl
    exact (@WritesOnly.setObj (fun _ => True) _ _ trivial present _).invariant state.invariant
  owned := state.owned
  holds := by
    intro memory member
    obtain ⟨found, pages, holds⟩ := state.holds memory member
    have map := holds.map.of_kept fun ptr own => Kernel.setObj_objs_of_ne kernel
      (some (.task value)) fun same => holds.map.not_task own old (same ▸ here)
    by_cases same : memory.task = task
    · have before := holds.task
      rw [same, here] at before
      cases before
      refine ⟨value, pages, ?_, sameDirectory.trans holds.pageDirectory, map⟩
      rw [same]
      exact Kernel.setObj_objs_self ..
    · exact ⟨found, pages, (Kernel.setObj_objs_of_ne _ _ same).trans holds.task,
        holds.pageDirectory, map⟩
  list := by
    refine ⟨state.list.head, state.list.tail, state.list.links.congr fun other _ => ?_,
      state.list.currentNull, state.list.current, fun other member => ?_, state.list.notNull,
      state.list.nodup⟩
    · rw [nextLink_setObj, prevLink_setObj]
      by_cases same : other = task
      · rw [if_pos same, if_pos same, same, sameNext, samePrev, nextLink_of_obj here,
          prevLink_of_obj here]
        exact ⟨rfl, rfl⟩
      · rw [if_neg same, if_neg same]
        exact ⟨rfl, rfl⟩
    · by_cases same : other = task
      · rw [same]
        exact ⟨value, Kernel.setObj_objs_self ..⟩
      · rw [Kernel.setObj_objs_of_ne _ _ same]
        exact state.list.present other member

/-- Switching to another task, with any other globals. -/
theorem TaskState.switch (state : TaskState region live memories kernel)
    (heap : next.heap = kernel.heap) (objs : next.objs = kernel.objs)
    (head : next.taskHead = kernel.taskHead) (tail : next.taskTail = kernel.taskTail)
    (current : next.currentTask ∈ memories.map TaskMemory.task) :
    TaskState region live memories next where
  invariant := by
    refine ⟨by rw [heap]; exact state.invariant.heap, fun allocation member => ?_,
      fun ptr present => ?_⟩
    · rw [objs]
      exact state.invariant.held allocation member
    · rw [objs] at present
      rw [heap]
      exact state.invariant.owned ptr present
  owned := state.owned
  holds := by
    intro memory member
    obtain ⟨value, pages, holds⟩ := state.holds memory member
    exact ⟨value, pages, holds.of_kept fun ptr _ => congrFun objs ptr⟩
  list := by
    refine ⟨head.trans state.list.head, tail.trans state.list.tail,
      state.list.links.congr fun task _ => links_of_kept (congrFun objs task), ?_,
      fun _ => current, fun task member => ?_, state.list.notNull, state.list.nodup⟩
    · exact iff_of_false (fun null => state.list.notNull (null ▸ current))
        (List.ne_nil_of_mem current)
    · rw [objs]
      exact state.list.present task member

/-- Writing the page directory of one task leaves the others alone. -/
theorem TaskState.writeTables (state : TaskState region live memories kernel)
    {memory : TaskMemory} (member : memory ∈ memories) {value : Task} {pages : Nat → Nat}
    (holds : TaskHolds memory value pages next)
    (only : WritesOnly memory.tables.owns kernel next) : TaskState region live memories next where
  invariant := only.invariant state.invariant
  owned := state.owned
  holds := by
    intro other listed
    by_cases same : other = memory
    · subst same
      exact ⟨value, pages, holds⟩
    · obtain ⟨value', pages', there⟩ := state.holds other listed
      exact ⟨value', pages', there.of_kept fun ptr own => only.kept ptr fun own' =>
        state.owned.not_owns listed member same own (.inr own')⟩
  list := by
    have globals := only.globals
    obtain ⟨_, _, before⟩ := state.holds memory member
    refine state.list.of_kept (fun task listed => only.kept task fun own => ?_)
      (by rw [globals]) (by rw [globals]) (by rw [globals])
    obtain ⟨found, here⟩ := state.list.present task listed
    exact before.map.not_task own found here

/-- A task in fresh memory can be appended to the list. -/
theorem taskListAppend_fresh (state : TaskState region live memories kernel)
    {live' : List Allocation} {middle : Kernel} {memory : TaskMemory} {process : Nat}
    {pages : Nat → Nat} (extended : Extended region live live' kernel middle memory.owns)
    (holds : TaskHolds memory (.initial memory.tables.chunk process) pages middle) :
    ∃ next, (taskListAppend memory.task).run middle = .ok ((), next) ∧
      TaskList ((memories ++ [memory]).map TaskMemory.task) next ∧
      Relinked ((memories ++ [memory]).map TaskMemory.task) middle next ∧
      next.currentTask = if middle.taskHead = 0 then memory.task else middle.currentTask := by
  have fresh : memory.task ∉ memories.map TaskMemory.task := by
    intro listed
    obtain ⟨other, member, same⟩ := List.mem_map.mp listed
    obtain ⟨allocation, present, here⟩ := state.owned.held other member _ (.inl rfl)
    exact extended.fresh allocation present (.inl (here.trans same))
  have notNull : memory.task ≠ 0 := by
    intro null
    have present := holds.task
    rw [null, extended.invariant.null] at present
    cases present
  have append := taskListAppend_spec (state.extended extended).list holds.task fresh notNull rfl rfl
  rwa [← List.map_singleton, ← List.map_append] at append

/-- A new task of the process was made in fresh memory and came last in the list. Of the
objects that were there only the links of tasks changed. -/
structure TaskMade (region : KernelRegion) (live live' : List Allocation)
    (memories : List TaskMemory) (kernel next : Kernel) (memory : TaskMemory) (process : Nat) :
    Prop where
  state : TaskState region live' (memories ++ [memory]) next
  grown : live ⊆ live'
  fresh : ∀ allocation ∈ live, ¬ memory.owns allocation.ptr
  held : ∀ ptr, memory.owns ptr → ∃ allocation ∈ live', allocation.ptr = ptr
  kept : ∀ allocation ∈ live, (∀ value, kernel.objs allocation.ptr ≠ some (.task value)) →
    next.objs allocation.ptr = kernel.objs allocation.ptr
  task : ∀ other ∈ memories, ∀ value pages, TaskHolds other value pages kernel →
    ∃ after before, TaskHolds other { value with next := after, prev := before } pages next
  made : ∃ after before, TaskHolds memory { Task.initial memory.tables.chunk process with
    next := after, prev := before } (identityPages taskPageFlags) next
  current : next.currentTask =
    if kernel.taskHead = 0 then memory.task else kernel.currentTask
  globals : next = { kernel with
    heap := next.heap, objs := next.objs, taskHead := next.taskHead, taskTail := next.taskTail,
    currentTask := next.currentTask }

/-- **A new task.** -/
theorem taskNew_spec (state : TaskState region live memories kernel) {task process : Nat}
    (run : (taskNew process).run kernel = .ok (task, next)) :
    ∃ live' memory, memory.task = task ∧
      TaskMade region live live' memories kernel next memory process := by
  obtain ⟨live', memory, middle, rfl, extended, holds, _, append⟩ :=
    taskNew_completed state.invariant run
  have middleState := state.extended extended
  obtain ⟨next', run', list, relinked, current⟩ := taskListAppend_fresh state extended holds
  rw [append] at run'
  cases run'
  have newHolds : ∀ other ∈ memories ++ [memory], ∃ value pages,
      TaskHolds other value pages middle := by
    intro other member
    rcases List.mem_append.mp member with old | new
    · exact middleState.holds other old
    · rw [List.mem_singleton] at new
      subst new
      exact ⟨_, _, holds⟩
  have present : ∀ task ∈ (memories ++ [memory]).map TaskMemory.task,
      ∃ value, middle.objs task = some (.task value) := by
    intro task listed
    obtain ⟨other, member, rfl⟩ := List.mem_map.mp listed
    obtain ⟨value, _, here⟩ := newHolds other member
    exact ⟨value, here.task⟩
  refine ⟨live', memory, rfl, ⟨relinked.invariant extended.invariant,
    (state.owned.cons extended).perm (List.perm_append_singleton memory memories).symm, ?_, list⟩,
    extended.grown, extended.fresh, extended.held, ?_, ?_, holds.of_relinked present relinked, ?_,
    ?_⟩
  · intro other member
    obtain ⟨value, pages, here⟩ := newHolds other member
    obtain ⟨after, before, still⟩ := here.of_relinked present relinked
    exact ⟨_, pages, still⟩
  · intro allocation member other
    rw [relinked.kept, extended.kept allocation member]
    intro listed
    obtain ⟨value, here⟩ := present _ listed
    rw [extended.kept allocation member] at here
    exact other value here
  · intro other member value pages here
    have still := here.of_kept fun ptr own => state.owned.kept extended member own
    exact still.of_relinked present relinked
  · rw [current, extended.globals]
  · rw [relinked.globals, extended.globals]

/-- The tasks of a state are different. -/
theorem TaskState.task_ne (state : TaskState region live memories kernel)
    {left right : List TaskMemory} {memory other : TaskMemory}
    (split : memories = left ++ memory :: right) (member : other ∈ left ++ right) :
    other.task ≠ memory.task := by
  have nodup := state.list.nodup
  rw [split, List.map_append, List.map_cons] at nodup
  have apart := (List.nodup_cons.mp (List.nodup_middle.mp nodup)).1
  rw [← List.map_append] at apart
  exact fun same => apart (same ▸ List.mem_map_of_mem member)

/-- What the other tasks own is not owned by a task. -/
theorem TaskState.not_owns (state : TaskState region live memories kernel)
    {left right : List TaskMemory} {memory other : TaskMemory}
    (split : memories = left ++ memory :: right) (member : other ∈ left ++ right) {ptr : Nat}
    (own : other.owns ptr) : ¬ memory.owns ptr := by
  refine state.owned.not_owns ?_ ?_ (fun same => ?_) own
  · rw [split, List.mem_append, List.mem_cons]
    exact (List.mem_append.mp member).imp_right .inr
  · rw [split]
    exact List.mem_append_right _ List.mem_cons_self
  · exact state.task_ne split member (congrArg TaskMemory.task same)

/-- `task_free` frees the page directory, removes the task from the list and frees it. -/
theorem taskFree_run (state : TaskState region live memories kernel)
    {left right : List TaskMemory} {memory : TaskMemory}
    (split : memories = left ++ memory :: right) :
    ∃ live' freed removed heap,
      (taskFree memory.task).run kernel =
        .ok (0, { removed with heap := heap }.setObj memory.task none) ∧
      Released region live live' kernel freed memory.tables.owns ∧
      TaskList (memories.map TaskMemory.task) freed ∧
      (taskListRemove memory.task).run freed = .ok ((), removed) ∧
      KernelInvariant region (live'.filter fun allocation => allocation.ptr ≠ memory.task)
        ({ removed with heap := heap }.setObj memory.task none) := by
  have member : memory ∈ memories := by
    rw [split]
    exact List.mem_append_right _ List.mem_cons_self
  obtain ⟨value, pages, holds⟩ := state.holds memory member
  obtain ⟨live', freed, free, released⟩ := pagingFree4gb_spec state.invariant
    taskPageFlags_small holds.map
  have list : TaskList (memories.map TaskMemory.task) freed := by
    have globals := released.globals
    refine state.list.of_kept (fun task listed => released.kept task fun own => ?_)
      (by rw [globals]) (by rw [globals]) (by rw [globals])
    obtain ⟨found, here⟩ := state.list.present task listed
    exact holds.map.not_task own found here
  have splitList := list
  rw [split, List.map_append, List.map_cons] at splitList
  obtain ⟨removed, remove, relinked, _⟩ := taskListRemove_run splitList
  have taskStill : (removed.objs memory.task).isSome := by
    obtain ⟨found, here⟩ := list.present memory.task (List.mem_map_of_mem member)
    rw [relinked.live, here]
    rfl
  obtain ⟨heap, freeTask, inv⟩ := kfree_spec (relinked.invariant released.invariant) taskStill
  have loaded : (load Obj.task? memory.task).run kernel = .ok (value, kernel) :=
    load_of_obj holds.task rfl
  refine ⟨live', freed, removed, heap, ?_, released, list, remove, inv⟩
  rw [taskFree, Exec.bind_of_ok loaded, holds.pageDirectory, Exec.bind_of_ok free,
    Exec.bind_of_ok remove, Exec.bind_of_ok freeTask, Exec.run_pure]

/-- **Freeing the last task.** The others stay as they are. -/
theorem taskFree_last {memory : TaskMemory}
    (state : TaskState region live (memories ++ [memory]) kernel) :
    ∃ live' next, (taskFree memory.task).run kernel = .ok (0, next) ∧
      TaskState region live' memories next := by
  obtain ⟨live', freed, removed, heap, run, released, list, remove, inv⟩ := taskFree_run state rfl
  rw [List.map_append, List.map_singleton] at list
  obtain ⟨removed', remove', relinked, prevLink, nextLink, head, tail, current⟩ :=
    taskListRemove_run list
  rw [remove] at remove'
  cases remove'
  rw [List.append_nil] at head tail
  have removedList := list.removeLast relinked prevLink nextLink head tail current
  have apart : ∀ other ∈ memories, other.task ≠ memory.task := fun other member =>
    state.task_ne rfl (List.mem_append_left _ member)
  have outside : ∀ other ∈ memories, ∀ ptr, other.owns ptr → ¬ memory.owns ptr :=
    fun other member ptr own => state.not_owns rfl (List.mem_append_left _ member) own
  refine ⟨_, _, run, inv, ⟨fun other member ptr own => ?_, ?_⟩, fun other member => ?_, ?_⟩
  · obtain ⟨allocation, present, rfl⟩ :=
      state.owned.held other (List.mem_append_left _ member) ptr own
    have unowned := outside other member _ own
    rw [TaskMemory.owns, not_or] at unowned
    exact ⟨allocation, List.mem_filter.mpr ⟨(released.remaining allocation).mpr
      ⟨present, unowned.2⟩, decide_eq_true unowned.1⟩, rfl⟩
  · exact (List.pairwise_append.mp state.owned.apart).1
  · obtain ⟨value, pages, holds⟩ := state.holds other (List.mem_append_left _ member)
    have freedHolds := holds.of_kept fun ptr own => released.kept ptr fun own' =>
      outside other member ptr own (.inr own')
    obtain ⟨after, before, removedHolds⟩ := freedHolds.of_relinked
      (fun task listed => list.present task (List.mem_append_left _ listed)) relinked
    exact ⟨_, pages, removedHolds.of_kept fun ptr own =>
      Kernel.setObj_objs_of_ne _ _ fun same => outside other member ptr own (.inl same)⟩
  · refine removedList.of_kept (fun task listed => ?_) rfl rfl rfl
    obtain ⟨other, member, rfl⟩ := List.mem_map.mp listed
    exact Kernel.setObj_objs_of_ne _ _ (apart other member)

/-- **Freeing another task.** The task after it keeps its `prev` link to the freed task. -/
theorem taskFree_stale {left right : List TaskMemory} {memory after : TaskMemory}
    (state : TaskState region live (left ++ memory :: after :: right) kernel) {res : Int}
    (run : (taskFree memory.task).run kernel = .ok (res, next)) :
    ¬ TaskList ((left ++ after :: right).map TaskMemory.task) next := by
  obtain ⟨live', freed, removed, heap, run', released, list, remove, inv⟩ :=
    taskFree_run state rfl
  rw [run] at run'
  cases run'
  rw [List.map_append, List.map_cons] at list
  obtain ⟨removed', remove', relinked, prevLink, _⟩ := taskListRemove_run list
  rw [remove] at remove'
  cases remove'
  rw [List.map_append, List.map_cons]
  intro list'
  refine not_linked_of_stale list.links ?_ ?_ list'.links
  · exact List.nodup_cons.mpr ⟨list.notNull, list.nodup⟩
  · have different : after.task ≠ memory.task := state.task_ne rfl
      (List.mem_append_right _ List.mem_cons_self)
    exact ((links_of_kept (Kernel.setObj_objs_of_ne _ _ different)).2).trans (prevLink after.task)

end State

section Progress

variable {region : KernelRegion} {supplies : List Allocation → Kernel → Nat → Prop}
  {live : List Allocation} {memories : List TaskMemory} {kernel : Kernel}

/-- **Blocks for a task.** -/
theorem taskNew_supplied (supply : Supply region supplies)
    (state : TaskState region live memories kernel) {left : Nat}
    (supplied : supplies live kernel (left + taskBlocks)) {process : Allocation}
    (processLive : process ∈ live) {value : Process}
    (processHere : kernel.objs process.ptr = some (.process value)) :
    ∃ live' memory next, (taskNew process.ptr).run kernel = .ok (memory.task, next) ∧
      live ⊆ live' ∧ next.objs process.ptr = some (.process value) ∧
      TaskState region live' (memories ++ [memory]) next ∧
      ∃ live'' middle, supplies live'' middle left ∧ next.heap = middle.heap := by
  rw [show left + taskBlocks = left + pagingBlocks + 1 by unfold taskBlocks; omega] at supplied
  obtain ⟨task, allocated, alloc, placed, supplied₁⟩ := supply.block supplied
    (show blocksFor sizeofTask = 1 by decide) (.task {})
  obtain ⟨_, middle, init, supplied₂⟩ := @taskInit_supplied _ _ _ _ _ supply ⟨task, sizeofTask⟩
    process supplied₁ List.mem_cons_self (List.mem_cons_of_mem _ processLive) value
    ((placed.kept process processLive).trans processHere) (placed.fresh process processLive)
  obtain ⟨live', memory, rfl, _, extended, holds, _⟩ := taskInit_completed
    (((Extended.refl state.invariant).placed placed).congr fun ptr => iff_of_eq (or_false _)) init
  obtain ⟨next, append, list, relinked, _⟩ := taskListAppend_fresh state extended holds
  have run : (taskNew process.ptr).run kernel = .ok (memory.task, next) := by
    rw [taskNew, kzalloc, Exec.bind_of_ok alloc, if_neg placed.notNull, Exec.bind_of_ok init,
      if_neg (by decide), Exec.bind_of_ok append, Exec.run_pure]
  obtain ⟨live'', other, same, made⟩ := taskNew_spec state run
  refine ⟨live'', other, next, by rw [run, same], made.grown, ?_, made.state, _, middle, supplied₂,
    relinked.heap⟩
  rw [made.kept process processLive fun value => by simp [processHere], processHere]

/-- **Room for a task.** -/
theorem taskNew_packed {used : Nat} (state : TaskState region live memories kernel)
    (packed : Packed region live kernel used) {process : Allocation} (processLive : process ∈ live)
    {value : Process} (processHere : kernel.objs process.ptr = some (.process value))
    (room : (used + taskBlocks) * peachosHeapBlockSize ≤ region.bytes) :
    ∃ live' memory next, (taskNew process.ptr).run kernel = .ok (memory.task, next) ∧
      live ⊆ live' ∧ next.objs process.ptr = some (.process value) ∧
      TaskState region live' (memories ++ [memory]) next ∧
      Packed region live' next (used + taskBlocks) := by
  obtain ⟨live', memory, next, run, grown, here, state', _, _, ⟨_, sum, packed'⟩, heap⟩ :=
    taskNew_supplied (packedSupply room) state (show PackedSupply region _ live kernel
      (0 + taskBlocks) from ⟨used, by omega, packed⟩) processLive processHere
  refine ⟨live', memory, next, run, grown, here, state', state'.invariant, ?_⟩
  rw [heap, ← sum]
  exact packed'.free

end Progress

/-- Runs of successful `task_new` calls and of `task_free` calls on live tasks, with the live
tasks in the order of their creation. -/
inductive TaskRun (allowed : List Nat → Nat → Prop) (start : Kernel) : List Nat → Kernel → Prop
  | start : TaskRun allowed start [] start
  | new {tasks : List Nat} {kernel next : Kernel} {process task : Nat}
      (before : TaskRun allowed start tasks kernel)
      (run : (taskNew process).run kernel = .ok (task, next)) :
      TaskRun allowed start (tasks ++ [task]) next
  | free {tasks : List Nat} {kernel next : Kernel} {task : Nat} {res : Int}
      (before : TaskRun allowed start tasks kernel) (member : task ∈ tasks)
      (may : allowed tasks task) (run : (taskFree task).run kernel = .ok (res, next)) :
      TaskRun allowed start (tasks.erase task) next

/-- The task is the last one. -/
def isLast (tasks : List Nat) (task : Nat) : Prop := tasks.getLast? = some task

section Runs

variable {region : KernelRegion} {live : List Allocation} {start kernel : Kernel}
  {tasks : List Nat}

theorem eq_concat_of_isLast {task : Nat} (last : isLast tasks task) :
    ∃ rest, tasks = rest ++ [task] := by
  obtain ⟨rest, same⟩ := List.getLast?_eq_some_iff.mp last
  exact ⟨rest, same⟩

theorem erase_of_isLast {rest : List Nat} {task : Nat} (nodup : (rest ++ [task]).Nodup) :
    (rest ++ [task]).erase task = rest := by
  have fresh : task ∉ rest := fun old =>
    (List.nodup_append.mp nodup).2.2 task old task (List.mem_singleton_self _) rfl
  rw [List.erase_append_right _ fresh, List.erase_cons_head, List.append_nil]

/-- The tasks of a run with the objects they own. -/
theorem TaskRun.state (inv : KernelInvariant region live start) (empty : TaskList [] start)
    (run : TaskRun isLast start tasks kernel) :
    ∃ live' memories, tasks = memories.map TaskMemory.task ∧
      TaskState region live' memories kernel := by
  induction run with
  | start => exact ⟨live, [], rfl, inv, .nil, nofun, empty⟩
  | new before run ih =>
      obtain ⟨live', memories, rfl, state⟩ := ih
      obtain ⟨live'', memory, rfl, made⟩ := taskNew_spec state run
      exact ⟨live'', memories ++ [memory], by rw [List.map_append, List.map_singleton], made.state⟩
  | free before member may run ih =>
      obtain ⟨live', memories, rfl, state⟩ := ih
      obtain ⟨rest, split⟩ := eq_concat_of_isLast may
      obtain ⟨init, last, rfl, rfl, single⟩ := List.map_eq_append_iff.mp split
      obtain ⟨memory, rfl, rfl⟩ := List.map_eq_singleton_iff.mp single
      obtain ⟨live'', next, run', state'⟩ := taskFree_last state
      rw [run] at run'
      cases run'
      refine ⟨live'', init, ?_, state'⟩
      have nodup := state.list.nodup
      rw [List.map_append, List.map_singleton] at nodup ⊢
      exact erase_of_isLast nodup

/-- **The list of tasks over a run.** While every `task_free` frees the last task, the list is
that of the live tasks. A `task_free` of a live task then completes with the list of the
remaining ones exactly if it frees the last task. -/
theorem taskRun_sound (inv : KernelInvariant region live start) (empty : TaskList [] start)
    (run : TaskRun isLast start tasks kernel) :
    TaskList tasks kernel ∧ ∀ task ∈ tasks,
      ((∃ next, (taskFree task).run kernel = .ok (0, next) ∧ TaskList (tasks.erase task) next) ↔
        isLast tasks task) := by
  obtain ⟨live', memories, rfl, state⟩ := run.state inv empty
  refine ⟨state.list, fun task listed => ?_⟩
  obtain ⟨memory, member, rfl⟩ := List.mem_map.mp listed
  obtain ⟨left, right, rfl⟩ := List.append_of_mem member
  have nodup := state.list.nodup
  cases right with
  | nil =>
      obtain ⟨live'', next, run', state'⟩ := taskFree_last state
      have last : isLast ((left ++ [memory]).map TaskMemory.task) memory.task := by
        rw [isLast, List.map_append, List.map_singleton, List.getLast?_concat]
      refine iff_of_true ⟨next, run', ?_⟩ last
      rw [List.map_append, List.map_singleton] at nodup ⊢
      rw [erase_of_isLast nodup]
      exact state'.list
  | cons after right =>
      refine iff_of_false ?_ ?_
      · rintro ⟨next, run', list⟩
        apply taskFree_stale state run'
        rw [List.map_append, List.map_cons] at nodup list
        have fresh : memory.task ∉ left.map TaskMemory.task := fun old =>
          (List.nodup_append.mp nodup).2.2 _ old _ List.mem_cons_self rfl
        rw [List.erase_append_right _ fresh, List.erase_cons_head] at list
        rwa [List.map_append]
      · intro last
        rw [isLast, List.map_append, List.map_cons, List.map_cons, List.getLast?_append_cons,
          List.getLast?_cons_cons] at last
        have present := List.mem_of_getLast? last
        rw [List.map_append, List.map_cons, List.map_cons] at nodup
        exact (List.nodup_cons.mp (List.nodup_append.mp nodup).2.1).1 present

end Runs

/-- Two tasks of one process in a fresh kernel. -/
theorem bootTasks : ∃ process start live kernel live' first second,
    (kzalloc sizeofProcess (.process {})).run bootKernel = .ok (process, start) ∧
    KernelInvariant kernelHeapRegion live start ∧ TaskList [] start ∧
    TaskState kernelHeapRegion live' [first, second] kernel ∧
    ∀ allowed, TaskRun allowed start [first.task, second.task] kernel := by
  obtain ⟨process, start, _, alloc, packed, placed⟩ := kmalloc_packed
    (freshKernel_packed kernelHeapRegion) (show 1 ≤ sizeofProcess by decide) (by decide)
    (show blocksFor sizeofProcess = 3 by decide) (by decide) (.process {})
  have globals := placed.globals
  have empty : TaskList [] start := by
    refine ⟨?_, ?_, trivial, ?_, fun more => absurd rfl more, nofun, nofun, .nil⟩
    · rw [globals]; rfl
    · rw [globals]; rfl
    · rw [globals]; exact iff_of_true rfl rfl
  have state₀ : TaskState kernelHeapRegion _ [] start := ⟨placed.invariant, .nil, nofun, empty⟩
  obtain ⟨live₁, first, middle, run₁, grown, processHere, state₁, packed₁⟩ := taskNew_packed state₀
    packed List.mem_cons_self placed.present (by decide)
  obtain ⟨live₂, second, kernel, run₂, _, _, state₂, _⟩ := taskNew_packed state₁ packed₁
    (grown List.mem_cons_self) processHere (by decide)
  exact ⟨process, start, _, kernel, live₂, first, second, alloc, placed.invariant, empty, state₂,
    fun allowed => (TaskRun.start.new run₁).new run₂⟩

theorem taskRun_sound_boot : ∃ process start kernel first second,
    (kzalloc sizeofProcess (.process {})).run bootKernel = .ok (process, start) ∧
    TaskRun isLast start [first, second] kernel ∧ TaskList [first, second] kernel ∧
    ∃ next, (taskFree second).run kernel = .ok (0, next) ∧ TaskList [first] next := by
  obtain ⟨process, start, live, kernel, _, first, second, alloc, inv, empty, state, run⟩ := bootTasks
  obtain ⟨list, free⟩ := taskRun_sound inv empty (run isLast)
  have nodup := state.list.nodup
  obtain ⟨next, freed, remaining⟩ := (free second.task (by simp)).mpr rfl
  refine ⟨process, start, kernel, _, _, alloc, run isLast, list, next, freed, ?_⟩
  rwa [← @erase_of_isLast [first.task] second.task nodup]

/-- Freeing the first of two tasks leaves the second one with a `prev` link to it. -/
theorem taskRun_stale : ∃ process start kernel first second,
    (kzalloc sizeofProcess (.process {})).run bootKernel = .ok (process, start) ∧
    TaskRun (fun _ _ => True) start [first, second] kernel ∧
    ∃ next, TaskRun (fun _ _ => True) start ([first, second].erase first) next ∧
      ¬ TaskList ([first, second].erase first) next := by
  obtain ⟨process, start, live, kernel, _, first, second, alloc, inv, empty, state, run⟩ := bootTasks
  obtain ⟨_, _, removed, heap, freed, _⟩ := @taskFree_run _ _ _ _ state [] [second] first rfl
  refine ⟨process, start, kernel, _, _, alloc, run _, _, (run _).free List.mem_cons_self trivial
    freed, ?_⟩
  rw [List.erase_cons_head]
  exact @taskFree_stale _ _ _ _ [] [] first second state _ freed

end Peachos
