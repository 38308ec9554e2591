import Peachos.Foundation.Links
import Peachos.Task.TaskMemory

/-! # The list of tasks

`TaskList` says that `task_head`, `task_tail`, `current_task` and the links in the tasks
describe a list of live tasks. `task_new` appends the new task to it (`taskListAppend_spec`), and
a `task_free` of the last task removes that one (`TaskList.removeLast`).
-/

namespace Peachos

open CInt Links

/-- `ptr->next`, of a task. -/
def Kernel.nextLink (kernel : Kernel) (ptr : Nat) : Nat :=
  (((kernel.objs ptr).bind Obj.task?).map Task.next).getD 0

/-- `ptr->prev`, of a task. -/
def Kernel.prevLink (kernel : Kernel) (ptr : Nat) : Nat :=
  (((kernel.objs ptr).bind Obj.task?).map Task.prev).getD 0

section Link

variable {kernel : Kernel} {ptr : Nat} {value : Task}

theorem nextLink_of_obj (here : kernel.objs ptr = some (.task value)) :
    kernel.nextLink ptr = value.next := by
  simp only [Kernel.nextLink, here, Option.bind_some, Obj.task?, Option.map_some, Option.getD_some]

theorem prevLink_of_obj (here : kernel.objs ptr = some (.task value)) :
    kernel.prevLink ptr = value.prev := by
  simp only [Kernel.prevLink, here, Option.bind_some, Obj.task?, Option.map_some, Option.getD_some]

theorem links_of_kept {next : Kernel} (kept : next.objs ptr = kernel.objs ptr) :
    next.nextLink ptr = kernel.nextLink ptr ∧ next.prevLink ptr = kernel.prevLink ptr := by
  simp only [Kernel.nextLink, Kernel.prevLink, kept, and_self]

theorem nextLink_setObj (kernel : Kernel) (ptr : Nat) (value : Task) (other : Nat) :
    (kernel.setObj ptr (some (.task value))).nextLink other =
      if other = ptr then value.next else kernel.nextLink other := by
  by_cases same : other = ptr
  · rw [if_pos same, same]
    exact nextLink_of_obj (Kernel.setObj_objs_self ..)
  · rw [if_neg same]
    exact (links_of_kept (Kernel.setObj_objs_of_ne _ _ same)).1

theorem prevLink_setObj (kernel : Kernel) (ptr : Nat) (value : Task) (other : Nat) :
    (kernel.setObj ptr (some (.task value))).prevLink other =
      if other = ptr then value.prev else kernel.prevLink other := by
  by_cases same : other = ptr
  · rw [if_pos same, same]
    exact prevLink_of_obj (Kernel.setObj_objs_self ..)
  · rw [if_neg same]
    exact (links_of_kept (Kernel.setObj_objs_of_ne _ _ same)).2

end Link

/-- The list of the live tasks, in the order of their creation. -/
structure TaskList (tasks : List Nat) (kernel : Kernel) : Prop where
  head : kernel.taskHead = tasks.headD 0
  tail : kernel.taskTail = tasks.getLastD 0
  links : Linked 0 kernel.nextLink kernel.prevLink 0 tasks
  currentNull : kernel.currentTask = 0 ↔ tasks = []
  current : tasks ≠ [] → kernel.currentTask ∈ tasks
  present : ∀ task ∈ tasks, ∃ value, kernel.objs task = some (.task value)
  notNull : 0 ∉ tasks
  nodup : tasks.Nodup

/-- Only the links of the tasks and the globals of the list changed. -/
structure Relinked (tasks : List Nat) (kernel next : Kernel) : Prop where
  heap : next.heap = kernel.heap
  kept : ∀ ptr, ptr ∉ tasks → next.objs ptr = kernel.objs ptr
  task : ∀ ptr value, kernel.objs ptr = some (.task value) →
    ∃ after before, next.objs ptr = some (.task { value with next := after, prev := before })
  live : ∀ ptr, (next.objs ptr).isSome = (kernel.objs ptr).isSome
  globals : next = { kernel with
    objs := next.objs, taskHead := next.taskHead, taskTail := next.taskTail,
    currentTask := next.currentTask }

namespace Relinked

variable {tasks : List Nat} {kernel middle next : Kernel}

theorem refl (kernel : Kernel) : Relinked tasks kernel kernel where
  heap := rfl
  kept := fun _ _ => rfl
  task := fun _ value here => ⟨value.next, value.prev, here⟩
  live := fun _ => rfl
  globals := rfl

theorem trans (first : Relinked tasks kernel middle) (second : Relinked tasks middle next) :
    Relinked tasks kernel next where
  heap := second.heap.trans first.heap
  kept := fun ptr other => (second.kept ptr other).trans (first.kept ptr other)
  task := by
    intro ptr value here
    obtain ⟨_, _, there⟩ := first.task ptr value here
    obtain ⟨after, before, last⟩ := second.task ptr _ there
    exact ⟨after, before, last⟩
  live := fun ptr => (second.live ptr).trans (first.live ptr)
  globals := by
    have changed := second.globals
    rw [first.globals] at changed
    exact changed

/-- Changing the links of one task. -/
theorem setObj {ptr : Nat} {value : Task} (here : kernel.objs ptr = some (.task value))
    (listed : ptr ∈ tasks) (after before : Nat) : Relinked tasks kernel
      (kernel.setObj ptr (some (.task { value with next := after, prev := before }))) where
  heap := rfl
  kept := fun other unlisted => Kernel.setObj_objs_of_ne _ _ fun same => unlisted (same ▸ listed)
  task := by
    intro other found there
    by_cases same : other = ptr
    · subst same
      rw [here] at there
      cases there
      exact ⟨after, before, Kernel.setObj_objs_self ..⟩
    · exact ⟨found.next, found.prev, (Kernel.setObj_objs_of_ne _ _ same).trans there⟩
  live := by
    intro other
    by_cases same : other = ptr
    · rw [same, Kernel.setObj_objs_self, here]
      rfl
    · rw [Kernel.setObj_objs_of_ne _ _ same]
  globals := rfl

/-- Changing the globals of the list. -/
theorem of_globals (head tail current : Nat) : Relinked tasks kernel
    { kernel with taskHead := head, taskTail := tail, currentTask := current } where
  heap := rfl
  kept := fun _ _ => rfl
  task := fun _ value here => ⟨value.next, value.prev, here⟩
  live := fun _ => rfl
  globals := rfl

theorem invariant (relinked : Relinked tasks kernel next) {region : KernelRegion}
    {live : List Allocation} (inv : KernelInvariant region live kernel) :
    KernelInvariant region live next := by
  refine ⟨by rw [relinked.heap]; exact inv.heap, fun allocation member => ?_, fun ptr here => ?_⟩
  · rw [relinked.live]
    exact inv.held allocation member
  · rw [relinked.live] at here
    rw [relinked.heap]
    exact inv.owned ptr here

end Relinked

/-- A page directory holds no tasks. -/
theorem PageMap.not_task {tables : PageTables} {flags : Nat} {pages : Nat → Nat} {kernel : Kernel}
    (map : PageMap tables flags pages kernel) {ptr : Nat} (own : tables.owns ptr) (value : Task) :
    kernel.objs ptr ≠ some (.task value) := by
  rcases map.contents own with ⟨directory, here⟩ | ⟨entries, here⟩ <;> rw [here] <;> nofun

/-- The objects of a task are no processes. -/
theorem TaskHolds.not_process {memory : TaskMemory} {task : Task} {pages : Nat → Nat}
    {kernel : Kernel} (holds : TaskHolds memory task pages kernel) {ptr : Nat}
    (own : memory.owns ptr) (value : Process) : kernel.objs ptr ≠ some (.process value) := by
  rcases own with rfl | own
  · rw [holds.task]
    nofun
  · rcases holds.map.contents own with ⟨directory, here⟩ | ⟨entries, here⟩ <;> rw [here] <;> nofun

/-- Writing a process leaves tasks alone. -/
theorem TaskHolds.setProcess {memory : TaskMemory} {task : Task} {pages : Nat → Nat}
    {kernel : Kernel} (holds : TaskHolds memory task pages kernel) {ptr : Nat} {old : Process}
    (here : kernel.objs ptr = some (.process old)) (value : Process) :
    TaskHolds memory task pages (kernel.setObj ptr (some (.process value))) :=
  holds.of_kept fun _ own => Kernel.setObj_objs_of_ne _ _ fun same =>
    holds.not_process own old (same ▸ here)

section Change

variable {tasks : List Nat} {kernel next : Kernel}

/-- The list stays as long as its tasks and its globals do. -/
theorem TaskList.of_kept (list : TaskList tasks kernel)
    (kept : ∀ task ∈ tasks, next.objs task = kernel.objs task)
    (head : next.taskHead = kernel.taskHead) (tail : next.taskTail = kernel.taskTail)
    (current : next.currentTask = kernel.currentTask) : TaskList tasks next where
  head := head.trans list.head
  tail := tail.trans list.tail
  links := list.links.congr fun task member => links_of_kept (kept task member)
  currentNull := by
    rw [current]
    exact list.currentNull
  current := by
    rw [current]
    exact list.current
  present := by
    intro task member
    rw [kept task member]
    exact list.present task member
  notNull := list.notNull
  nodup := list.nodup

/-- The objects that are not in the list stay when it is relinked. -/
theorem TaskHolds.of_relinked (present : ∀ task ∈ tasks, ∃ value,
    kernel.objs task = some (.task value)) {memory : TaskMemory} {value : Task}
    {pages : Nat → Nat} (holds : TaskHolds memory value pages kernel)
    (relinked : Relinked tasks kernel next) : ∃ after before,
      TaskHolds memory { value with next := after, prev := before } pages next := by
  obtain ⟨after, before, there⟩ := relinked.task _ _ holds.task
  refine ⟨after, before, there, holds.pageDirectory, holds.map.of_kept fun ptr own => ?_⟩
  apply relinked.kept
  intro member
  obtain ⟨found, here⟩ := present ptr member
  exact holds.map.not_task own found here

/-- **Appending a task.** -/
theorem taskListAppend_spec (list : TaskList tasks kernel) {task : Nat} {value : Task}
    (here : kernel.objs task = some (.task value)) (fresh : task ∉ tasks) (notNull : task ≠ 0)
    (noNext : value.next = 0) (noPrev : value.prev = 0) :
    ∃ next, (taskListAppend task).run kernel = .ok ((), next) ∧
      TaskList (tasks ++ [task]) next ∧ Relinked (tasks ++ [task]) kernel next ∧
      next.currentTask = if kernel.taskHead = 0 then task else kernel.currentTask := by
  have readHead : (Exec.read Kernel.taskHead : K Nat).run kernel = .ok (_, kernel) :=
    Exec.run_read _ _
  have listed : (0 : Nat) ∉ tasks ++ [task] := by
    rw [List.mem_append, List.mem_singleton, not_or]
    exact ⟨list.notNull, notNull.symm⟩
  have nodup : (tasks ++ [task]).Nodup := by
    rw [List.nodup_append]
    refine ⟨list.nodup, List.nodup_singleton _, fun first member second other same => ?_⟩
    rw [List.mem_singleton] at other
    exact fresh (other ▸ same ▸ member)
  rcases List.eq_nil_or_concat tasks with rfl | ⟨init, last, rfl⟩
  · have empty : kernel.taskHead = 0 := list.head
    refine ⟨{ kernel with taskHead := task, taskTail := task, currentTask := task }, ?_, ?_,
      .of_globals task task task, (if_pos empty).symm⟩
    · rw [taskListAppend, Exec.bind_of_ok readHead, if_pos empty, Exec.run_update]
    · refine ⟨rfl, rfl, ⟨?_, ?_, trivial⟩, ?_, fun _ => List.mem_singleton_self _, ?_, listed,
        nodup⟩
      · exact (@prevLink_of_obj { kernel with
          taskHead := task, taskTail := task, currentTask := task } task value here).trans noPrev
      · exact (@nextLink_of_obj { kernel with
          taskHead := task, taskTail := task, currentTask := task } task value here).trans noNext
      · simp only [notNull, List.nil_append, List.cons_ne_nil]
      · intro other member
        rw [List.nil_append, List.mem_singleton] at member
        exact ⟨value, member ▸ here⟩
  · rw [List.concat_eq_append] at list fresh listed nodup ⊢
    have notEmpty : kernel.taskHead ≠ 0 := by
      rw [list.head]
      intro null
      cases init with
      | nil => exact list.notNull (null ▸ List.mem_singleton_self _)
      | cons first rest => exact list.notNull (null ▸ List.mem_cons_self)
    have lastMember : last ∈ init ++ [last] := List.mem_append_right _ (List.mem_singleton_self _)
    have lastListed : last ∈ init ++ [last] ++ [task] := List.mem_append_left _ lastMember
    have taskListed : task ∈ init ++ [last] ++ [task] :=
      List.mem_append_right _ (List.mem_singleton_self _)
    have tail : kernel.taskTail = last := list.tail.trans List.getLastD_concat
    obtain ⟨lastValue, lastHere⟩ := list.present last lastMember
    have apart : task ≠ last := fun same => fresh (same ▸ lastMember)
    have taskHere : (kernel.setObj last (some (.task { lastValue with next := task }))).objs task =
        some (.task value) := by
      rw [Kernel.setObj_objs_of_ne _ _ apart, here]
    have readTail : (Exec.read Kernel.taskTail : K Nat).run kernel = .ok (last, kernel) := by
      rw [Exec.run_read, tail]
    have loadedLast : (load Obj.task? last).run kernel = .ok (_, kernel) :=
      load_of_obj lastHere rfl
    have loadedTask : (load Obj.task? task).run (kernel.setObj last (some (.task
        { lastValue with next := task }))) = .ok (value, _) := load_of_obj taskHere rfl
    have relinked := ((Relinked.setObj lastHere lastListed task lastValue.prev).trans
      (Relinked.setObj taskHere taskListed value.next last)).trans
        (.of_globals kernel.taskHead task kernel.currentTask)
    have notNil : init ++ [last] ≠ [] := List.append_ne_nil_of_right_ne_nil _
      (List.cons_ne_nil _ _)
    refine ⟨_, ?_, ?_, relinked, (if_neg notEmpty).symm⟩
    · rw [taskListAppend, Exec.bind_of_ok readHead, if_neg notEmpty, Exec.bind_of_ok readTail,
        Exec.bind_of_ok loadedLast, Exec.bind_of_ok (store_of_live (by rw [lastHere]; rfl)),
        Exec.bind_of_ok loadedTask, Exec.bind_of_ok (store_of_live (by rw [taskHere]; rfl)),
        Exec.run_update]
      rfl
    · have nextLink : ∀ other, ((kernel.setObj last (some (.task
          { lastValue with next := task }))).setObj task (some (.task
            { value with prev := last }))).nextLink other =
              if other = task then 0 else if other = last then task
                else kernel.nextLink other := by
        intro other
        rw [nextLink_setObj, nextLink_setObj, noNext]
      have prevLink : ∀ other, ((kernel.setObj last (some (.task
          { lastValue with next := task }))).setObj task (some (.task
            { value with prev := last }))).prevLink other =
              if other = task then last else kernel.prevLink other := by
        intro other
        rw [prevLink_setObj, prevLink_setObj]
        by_cases same : other = last
        · rw [if_pos same, same, prevLink_of_obj lastHere]
        · rw [if_neg same]
      have notTask : ∀ other ∈ init ++ [last], other ≠ task :=
        fun other member same => fresh (same ▸ member)
      refine ⟨?_, List.getLastD_concat.symm, list.links.append nodup ?_ ?_ ?_ ?_ ?_, ?_, ?_, ?_,
        listed, nodup⟩
      · change kernel.taskHead = _
        rw [list.head]
        cases init <;> rfl
      · intro other member
        exact (prevLink other).trans (if_neg (notTask other member))
      · intro other member different
        rw [List.getLastD_concat] at different
        exact (nextLink other).trans
          ((if_neg (notTask other member)).trans (if_neg different))
      · intro _
        rw [List.getLastD_concat]
        exact (nextLink last).trans ((if_neg apart.symm).trans (if_pos rfl))
      · rw [List.getLastD_concat]
        exact (prevLink task).trans (if_pos rfl)
      · exact (nextLink task).trans (if_pos rfl)
      · change kernel.currentTask = 0 ↔ _
        rw [list.currentNull]
        simp only [List.append_eq_nil_iff, List.cons_ne_nil, and_false]
      · intro _
        exact List.mem_append_left _ (list.current notNil)
      · intro other member
        rcases List.mem_append.mp member with old | new
        · obtain ⟨found, before⟩ := list.present other old
          obtain ⟨_, _, there⟩ := relinked.task other found before
          exact ⟨_, there⟩
        · rw [List.mem_singleton] at new
          subst new
          obtain ⟨_, _, there⟩ := relinked.task other value here
          exact ⟨_, there⟩

/-- The task after the current one; after the last one the first one. -/
theorem taskGetNext_of_obj {value : Task}
    (here : kernel.objs kernel.currentTask = some (.task value)) :
    taskGetNext.run kernel =
      .ok (if value.next = 0 then kernel.taskHead else value.next, kernel) := by
  have loaded : (load Obj.task? kernel.currentTask).run kernel = .ok (value, kernel) :=
    load_of_obj here rfl
  rw [taskGetNext, Exec.bind_of_ok (Exec.run_read _ _), Exec.bind_of_ok loaded]
  split
  · rw [Exec.run_read]
  · rw [Exec.run_pure]

/-- The task that comes next has the next position, after the last one the first one. -/
theorem TaskList.getNext (list : TaskList tasks kernel) {position task : Nat}
    (here : tasks[position]? = some task) {value : Task}
    (found : kernel.objs task = some (.task value)) :
    tasks[if position + 1 < tasks.length then position + 1 else 0]? =
      some (if value.next = 0 then kernel.taskHead else value.next) := by
  obtain ⟨inside, rfl⟩ := List.getElem?_eq_some_iff.mp here
  have split : tasks = tasks.take position ++ tasks[position] :: tasks.drop (position + 1) := by
    rw [← List.drop_eq_getElem_cons inside, List.take_append_drop]
  have links := list.links
  rw [split] at links
  obtain ⟨_, nextHere⟩ := links.at
  rw [nextLink_of_obj found] at nextHere
  by_cases last : position + 1 < tasks.length
  · have notNull : tasks[position + 1] ≠ 0 := fun null =>
      list.notNull (null ▸ List.getElem_mem last)
    rw [List.drop_eq_getElem_cons last, List.headD_cons] at nextHere
    rw [if_pos last, nextHere, if_neg notNull, List.getElem?_eq_getElem last]
  · rw [List.drop_eq_nil_of_le (by omega)] at nextHere
    have null : value.next = 0 := nextHere
    rw [if_neg last, if_pos null, list.head]
    cases tasks with
    | nil => cases here
    | cons first rest => rfl

/-- Taking a task out of the `next` links of the tasks before it. -/
theorem taskListSkip_spec (present : ∀ task ∈ tasks, ∃ value, kernel.objs task =
    some (.task value)) (notNull : 0 ∉ tasks) {value : Task} (prevHere : value.prev = tasks.getLastD 0) :
    ∃ next, (taskListSkip value).run kernel = .ok ((), next) ∧ Relinked tasks kernel next ∧
      next = { kernel with objs := next.objs } ∧
      (∀ other, next.prevLink other = kernel.prevLink other) ∧
      ∀ other ∈ tasks, next.nextLink other =
        if other = value.prev then value.next else kernel.nextLink other := by
  rcases List.eq_nil_or_concat tasks with rfl | ⟨init, last, rfl⟩
  · refine ⟨kernel, ?_, .refl kernel, rfl, fun _ => rfl, nofun⟩
    have null : value.prev = 0 := prevHere
    rw [taskListSkip, Exec.run_when, if_neg (not_not.mpr null)]
  · rw [List.concat_eq_append] at present notNull prevHere ⊢
    rw [List.getLastD_concat] at prevHere
    have member : last ∈ init ++ [last] := List.mem_append_right _ (List.mem_singleton_self _)
    obtain ⟨lastValue, here⟩ := present last member
    have lastNotNull : last ≠ 0 := fun null => notNull (null ▸ member)
    have loaded : (load Obj.task? last).run kernel = .ok (_, kernel) := load_of_obj here rfl
    refine ⟨_, ?_, .setObj here member value.next lastValue.prev, rfl, ?_, ?_⟩
    · rw [taskListSkip, prevHere, Exec.run_when,
        if_pos lastNotNull, Exec.bind_of_ok loaded]
      exact store_of_live (by rw [here]; rfl)
    · intro other
      rw [prevLink_setObj]
      by_cases same : other = last
      · rw [if_pos same, same, prevLink_of_obj here]
      · rw [if_neg same]
    · intro other _
      rw [nextLink_setObj, prevHere]

/-- **Removing a task.** The tasks around it keep their `prev` links. -/
theorem taskListRemove_run {left right : List Nat} {task : Nat}
    (list : TaskList (left ++ task :: right) kernel) :
    ∃ next, (taskListRemove task).run kernel = .ok ((), next) ∧ Relinked left kernel next ∧
      (∀ other, next.prevLink other = kernel.prevLink other) ∧
      (∀ other ∈ left, next.nextLink other =
        if other = left.getLastD 0 then right.headD 0 else kernel.nextLink other) ∧
      next.taskHead = (left ++ right).headD 0 ∧ next.taskTail = (left ++ right).getLastD 0 ∧
      next.currentTask = if task = kernel.currentTask then (right ++ left).headD 0
        else kernel.currentTask := by
  have member : task ∈ left ++ task :: right := List.mem_append_right _ List.mem_cons_self
  obtain ⟨value, here⟩ := list.present task member
  obtain ⟨prevHere, nextHere⟩ := list.links.at
  rw [prevLink_of_obj here] at prevHere
  rw [nextLink_of_obj here] at nextHere
  have apart := List.nodup_middle.mp list.nodup
  have freshLeft : task ∉ left := fun old =>
    (List.nodup_cons.mp apart).1 (List.mem_append_left _ old)
  have freshRight : task ∉ right := fun old =>
    (List.nodup_cons.mp apart).1 (List.mem_append_right _ old)
  obtain ⟨skipped, skip, relinked, same, prevLink, nextLink⟩ := taskListSkip_spec
    (fun other old => list.present other (List.mem_append_left _ old))
    (fun old => list.notNull (List.mem_append_left _ old)) prevHere
  have taskHere : skipped.objs task = some (.task value) :=
    (relinked.kept task freshLeft).trans here
  have head : skipped.taskHead = (left ++ task :: right).headD 0 := by
    rw [same]
    exact list.head
  have tail : skipped.taskTail = (left ++ task :: right).getLastD 0 := by
    rw [same]
    exact list.tail
  have current : skipped.currentTask = kernel.currentTask := by rw [same]
  have setHead : (Exec.when (task = skipped.taskHead) (Exec.update fun kernel =>
      { kernel with taskHead := value.next }) : K Unit).run skipped =
        .ok ((), { skipped with taskHead := (left ++ right).headD 0 }) := by
    rw [Exec.run_when, nextHere, head]
    cases left with
    | nil => exact if_pos rfl
    | cons first rest =>
        have different : task ≠ first := fun equal => freshLeft (equal ▸ List.mem_cons_self)
        rw [List.cons_append, List.headD_cons] at head
        rw [List.cons_append, List.headD_cons, if_neg different, List.cons_append,
          List.headD_cons, ← head]
  have setTail : (Exec.when (task = skipped.taskTail) (Exec.update fun kernel =>
      { kernel with taskTail := value.prev }) : K Unit).run
        { skipped with taskHead := (left ++ right).headD 0 } = .ok ((), { skipped with
          taskHead := (left ++ right).headD 0, taskTail := (left ++ right).getLastD 0 }) := by
    rw [Exec.run_when, prevHere, tail, getLastD_append_cons]
    rw [getLastD_append_cons] at tail
    rcases List.eq_nil_or_concat right with rfl | ⟨init, last, rfl⟩
    · rw [List.append_nil]
      exact if_pos rfl
    · rw [List.concat_eq_append] at freshRight tail ⊢
      have different : task ≠ last := fun equal =>
        freshRight (equal ▸ List.mem_append_right _ (List.mem_singleton_self _))
      rw [List.getLastD_concat] at tail
      rw [List.getLastD_concat, if_neg different, ← List.append_assoc, List.getLastD_concat,
        ← tail]
  have setCurrent : (Exec.when (task = skipped.currentTask) (do
      let next ← taskGetNext
      Exec.update fun kernel => { kernel with currentTask := next }) : K Unit).run { skipped with
        taskHead := (left ++ right).headD 0, taskTail := (left ++ right).getLastD 0 } =
          .ok ((), { skipped with
            taskHead := (left ++ right).headD 0, taskTail := (left ++ right).getLastD 0,
            currentTask := if task = skipped.currentTask then (right ++ left).headD 0
              else skipped.currentTask }) := by
    rw [Exec.run_when]
    split
    next running =>
      have done := @taskGetNext_of_obj { skipped with
        taskHead := (left ++ right).headD 0, taskTail := (left ++ right).getLastD 0 } value
          (running ▸ taskHere)
      rw [nextHere] at done
      rw [Exec.bind_of_ok done, Exec.run_update]
      cases right with
      | nil => rw [List.append_nil]; rfl
      | cons first rest =>
          have notNull : first ≠ 0 := fun null => list.notNull (null ▸
            List.mem_append_right _ (List.mem_cons_of_mem _ List.mem_cons_self))
          rw [List.headD_cons, if_neg notNull]
          rfl
    next => rfl
  refine ⟨_, ?_, relinked.trans (.of_globals ((left ++ right).headD 0)
    ((left ++ right).getLastD 0) (if task = skipped.currentTask then (right ++ left).headD 0
      else skipped.currentTask)), prevLink, ?_, rfl, rfl, ?_⟩
  · have loaded : (load Obj.task? task).run kernel = .ok (value, kernel) := load_of_obj here rfl
    rw [taskListRemove, Exec.bind_of_ok loaded, Exec.bind_of_ok skip,
      Exec.bind_of_ok (Exec.run_read _ _), Exec.bind_of_ok setHead,
      Exec.bind_of_ok (Exec.run_read _ _), Exec.bind_of_ok setTail,
      Exec.bind_of_ok (Exec.run_read _ _)]
    exact setCurrent
  · intro other old
    rw [← nextHere, ← prevHere]
    exact nextLink other old
  · rw [← current]

/-- **Removing the last task.** -/
theorem TaskList.removeLast {tasks : List Nat} {task : Nat}
    (list : TaskList (tasks ++ [task]) kernel) (relinked : Relinked tasks kernel next)
    (prevLink : ∀ other, next.prevLink other = kernel.prevLink other)
    (nextLink : ∀ other ∈ tasks, next.nextLink other =
      if other = tasks.getLastD 0 then 0 else kernel.nextLink other)
    (head : next.taskHead = tasks.headD 0) (tail : next.taskTail = tasks.getLastD 0)
    (current : next.currentTask = if task = kernel.currentTask then tasks.headD 0
      else kernel.currentTask) : TaskList tasks next := by
  have running : kernel.currentTask ∈ tasks ++ [task] :=
    list.current (List.append_ne_nil_of_right_ne_nil _ (List.cons_ne_nil _ _))
  have others : task ≠ kernel.currentTask → kernel.currentTask ∈ tasks := fun different =>
    (List.mem_append.mp running).resolve_right fun last =>
      different (List.mem_singleton.mp last).symm
  have notNull : 0 ∉ tasks := fun old => list.notNull (List.mem_append_left _ old)
  refine ⟨head, tail, ?_, ?_, ?_, ?_, notNull, (List.nodup_append.mp list.nodup).1⟩
  · refine list.links.removeLast (List.nodup_append.mp list.nodup).1
      (fun other _ => prevLink other) (fun other old different => ?_) fun more => ?_
    · exact (nextLink other old).trans (if_neg different)
    · have last : tasks.getLastD 0 ∈ tasks := by
        rw [List.getLastD_eq_getLast?, List.getLast?_eq_getLast_of_ne_nil more]
        exact List.getLast_mem more
      exact (nextLink _ last).trans (if_pos rfl)
  · rw [current]
    split
    next =>
      cases tasks with
      | nil => exact iff_of_true rfl rfl
      | cons first rest =>
          exact iff_of_false (fun null => notNull (null ▸ List.mem_cons_self))
            (List.cons_ne_nil _ _)
    next different =>
      exact iff_of_false (fun null => notNull (null ▸ others different))
        (List.ne_nil_of_mem (others different))
  · intro more
    rw [current]
    split
    next =>
      cases tasks with
      | nil => exact absurd rfl more
      | cons first rest => exact List.mem_cons_self
    next different => exact others different
  · intro other old
    obtain ⟨found, there⟩ := list.present other (List.mem_append_left _ old)
    obtain ⟨_, _, still⟩ := relinked.task other found there
    exact ⟨_, still⟩

end Change

end Peachos
