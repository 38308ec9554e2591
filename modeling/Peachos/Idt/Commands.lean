import Peachos.Idt.Idt
import Peachos.Task.InterruptSpec

/-! # Callbacks and commands

`interrupt_handler` and `isr80h_handle_command` call what is in their tables. After `idt_init` the
table of the callbacks leads where the model of the handler goes (`interruptHandler_eq`). No id
is registered again once it has a function: a sequence of registrations either fills the table with
exactly its commands, or ends in a panic (`isr80hRegisterCommands_dispatches`).
-/

namespace Peachos

open CInt

/-- Read a table of functions. -/
def tableEntry (table : List UInt32) (index : Nat) : K UInt32 :=
  Exec.demand (.bufferIndex index) fun _ => table[index]?

theorem tableEntry_run {table : List UInt32} {index : Nat} {address : UInt32}
    (found : table[index]? = some address) (kernel : Kernel) :
    (tableEntry table index).run kernel = .ok (address, kernel) :=
  Exec.demand_of_some found

/-- `interrupt_handler` over a table of callbacks. The function at an address is `call`. -/
def interruptHandlerWith (callbacks : List UInt32) (call : UInt32 → InterruptFrame → K Nat)
    (interrupt : Nat) (frame : InterruptFrame) : K (Option Nat) := do
  kernelPage
  let callback ← tableEntry callbacks interrupt
  if callback ≠ 0 then do
    taskCurrentSaveState frame
    let task ← call callback frame
    pure (some task)
  else do
    taskPage
    pure none

/-- `isr80h_handle_command` over a table of commands. The function at an address is `call`. -/
def isr80hHandleCommandWith (commands : List UInt32) (call : UInt32 → InterruptFrame → K Nat)
    (command : Int) (frame : InterruptFrame) : K Nat :=
  if command < 0 ∨ command ≥ peachosMaxIsr80hCommands then pure 0
  else do
    let commandFunc ← tableEntry commands command.toNat
    if commandFunc = 0 then pure 0 else call commandFunc frame

section Callbacks

variable {symbols : Symbols} {before after : IdtState} {call : UInt32 → InterruptFrame → K Nat}

/-- **The callbacks.** After `idt_init` over the empty table, `interrupt_handler` is the handler of
the model. -/
theorem interruptHandler_eq (ready : IdtReady symbols before after)
    (empty : before.interruptCallbacks = List.replicate peachosTotalInterrupts 0)
    (exception : symbols.idtHandleException ≠ 0) (clock : symbols.idtClock ≠ 0)
    (exceptionCall : ∀ frame, call symbols.idtHandleException frame = idtHandleException)
    (clockCall : ∀ frame, call symbols.idtClock frame = idtClock) {interrupt : Nat}
    (inside : interrupt < peachosTotalInterrupts) (frame : InterruptFrame) (kernel : Kernel) :
    (interruptHandlerWith after.interruptCallbacks call interrupt frame).run kernel =
      (interruptHandler interrupt frame).run kernel := by
  have length : interrupt < before.interruptCallbacks.length := by
    rwa [empty, List.length_replicate]
  have old : before.interruptCallbacks[interrupt] = 0 := by
    simp only [empty, List.getElem_replicate]
  have found := ready.callbacks interrupt length
  rw [old] at found
  refine Exec.bind_congr fun _ paged _ => ?_
  rw [Exec.bind_of_ok (tableEntry_run found paged), Symbols.callback, interruptCallbacks]
  by_cases early : interrupt < 0x20
  · rw [if_pos early, if_pos early, if_pos exception]
    refine Exec.bind_congr fun _ saved _ => ?_
    rw [exceptionCall]
  · rw [if_neg early, if_neg early]
    by_cases tick : interrupt = 0x20
    · rw [if_pos tick, if_pos tick, if_pos clock]
      refine Exec.bind_congr fun _ saved _ => ?_
      rw [clockCall]
    · rw [if_neg tick, if_neg tick, if_neg (not_not.mpr rfl)]

end Callbacks

/-- With nothing registered, `isr80h_handle_command` is the one of the model. -/
theorem isr80hHandleCommand_eq (call : UInt32 → InterruptFrame → K Nat) (command : Int)
    (frame : InterruptFrame) (kernel : Kernel) :
    (isr80hHandleCommandWith (List.replicate 1024 0) call command frame).run kernel =
      (isr80hHandleCommand command frame).run kernel := by
  rw [isr80hHandleCommandWith, isr80hHandleCommand_run]
  split
  · rfl
  · next inside =>
      have below : command.toNat < 1024 := by
        unfold peachosMaxIsr80hCommands at inside
        omega
      have found : (List.replicate 1024 (0 : UInt32))[command.toNat]? = some 0 := by
        rw [List.getElem?_replicate, if_pos below]
      rw [Exec.bind_of_ok (tableEntry_run found kernel), if_pos rfl]
      rfl

/-- Register commands one after the other. -/
def isr80hRegisterCommands : List (Int × UInt32) → IdtM Unit
  | [] => pure ()
  | (commandId, command) :: rest => do
      isr80hRegisterCommand commandId command
      isr80hRegisterCommands rest

/-- Registrations of commands in the range, none of which comes after a function with its id. -/
structure Registrable (registrations : List (Int × UInt32)) : Prop where
  inRange : ∀ registration ∈ registrations,
    0 ≤ registration.1 ∧ registration.1 < peachosMaxIsr80hCommands
  once : registrations.Pairwise fun first second => first.1 = second.1 → first.2 = 0

/-- The table holds the functions that were registered, and null elsewhere. -/
structure Registered (registrations : List (Int × UInt32)) (commands : List UInt32) : Prop where
  length : commands.length = 1024
  function : ∀ (commandId : Nat) (command : UInt32), commands[commandId]? = some command →
    command ≠ 0 → ((commandId : Int), command) ∈ registrations
  null : ∀ (commandId : Nat), commands[commandId]? = some 0 →
    ∀ command, ((commandId : Int), command) ∈ registrations → command = 0

section Commands

variable {registrations : List (Int × UInt32)} {state before : IdtState}

theorem registered_empty : Registered [] (List.replicate 1024 0) where
  length := List.length_replicate
  function := by
    intro commandId command here some
    rw [List.getElem?_replicate] at here
    split at here
    · exact absurd (Option.some.inj here).symm some
    · cases here
  null := fun _ _ _ member => absurd member List.not_mem_nil

/-- One more registration in an empty slot. -/
theorem Registered.set {commands : List UInt32} (registered : Registered registrations commands)
    {commandId : Nat} (inside : commandId < 1024) (empty : commands[commandId]? = some 0)
    (command : UInt32) :
    Registered (registrations ++ [((commandId : Int), command)])
      (commands.set commandId command) where
  length := by rw [List.length_set, registered.length]
  function := by
    intro other function here some
    by_cases same : other = commandId
    · rw [same, List.getElem?_set_self (by rwa [registered.length])] at here
      rw [same, ← Option.some.inj here]
      exact List.mem_append_right _ (List.mem_singleton_self _)
    · rw [List.getElem?_set_ne (Ne.symm same)] at here
      exact List.mem_append_left _ (registered.function other function here some)
  null := by
    intro other here function member
    by_cases same : other = commandId
    · rw [same, List.getElem?_set_self (by rwa [registered.length])] at here
      rw [same] at member
      rcases List.mem_append.mp member with old | new
      · exact registered.null commandId empty function old
      · exact (Prod.mk.inj (List.mem_singleton.mp new)).2.trans (Option.some.inj here)
    · rw [List.getElem?_set_ne (Ne.symm same)] at here
      rcases List.mem_append.mp member with old | new
      · exact registered.null other here function old
      · have ids := (Prod.mk.inj (List.mem_singleton.mp new)).1
        exact absurd (Int.ofNat.inj ids) same

/-- **One registration** completes if the id is in the range and has no function. -/
theorem isr80hRegisterCommand_run (registered : Registered registrations state.isr80hCommands)
    (commandId : Int) (command : UInt32) :
    ((0 ≤ commandId ∧ commandId < peachosMaxIsr80hCommands ∧
        ∀ function, (commandId, function) ∈ registrations → function = 0) ∧
      ∃ next, (isr80hRegisterCommand commandId command).run state = .ok ((), next) ∧
        Registered (registrations ++ [(commandId, command)]) next.isr80hCommands) ∨
    (¬ (0 ≤ commandId ∧ commandId < peachosMaxIsr80hCommands ∧
        ∀ function, (commandId, function) ∈ registrations → function = 0) ∧
      ∃ message, (isr80hRegisterCommand commandId command).run state =
        .error (.panic message)) := by
  rw [isr80hRegisterCommand]
  by_cases outside : commandId < 0 ∨ commandId ≥ peachosMaxIsr80hCommands
  · rw [if_pos outside]
    exact .inr ⟨fun inside => by omega, _, rfl⟩
  rw [if_neg outside]
  unfold peachosMaxIsr80hCommands at outside
  obtain ⟨index, rfl⟩ : ∃ index : Nat, commandId = index := ⟨commandId.toNat, by omega⟩
  have below : index < 1024 := by omega
  have inside : index < state.isr80hCommands.length := by rwa [registered.length]
  have here := List.getElem?_eq_getElem inside
  have read : (Exec.demand (Fault.bufferIndex index) fun state : IdtState =>
      state.isr80hCommands[(index : Int).toNat]?).run state =
        .ok (state.isr80hCommands[index], state) :=
    Exec.demand_of_some (by rw [Int.toNat_natCast, here])
  rw [Exec.bind_of_ok read, Int.toNat_natCast]
  by_cases empty : state.isr80hCommands[index] = 0
  · rw [if_neg (not_not.mpr empty)]
    rw [empty] at here
    exact .inl ⟨⟨by omega, by unfold peachosMaxIsr80hCommands; omega, registered.null index here⟩,
      _, rfl, registered.set below here command⟩
  · rw [if_pos empty]
    refine .inr ⟨fun free => empty ?_, _, rfl⟩
    exact free.2.2 _ (registered.function index _ here empty)

theorem registrable_append {commandId : Int} {command : UInt32} {rest : List (Int × UInt32)} :
    Registrable (registrations ++ (commandId, command) :: rest) →
      0 ≤ commandId ∧ commandId < peachosMaxIsr80hCommands ∧
        ∀ function, (commandId, function) ∈ registrations → function = 0 := by
  rintro ⟨inRange, once⟩
  have range := inRange (commandId, command) (List.mem_append_right _ List.mem_cons_self)
  have apart := (List.pairwise_append.mp once).2.2
  exact ⟨range.1, range.2, fun function member => apart _ member _ List.mem_cons_self rfl⟩

/-- The registrations that are left, after those that completed. -/
theorem isr80hRegisterCommands_run : ∀ (rest registrations : List (Int × UInt32))
    (state : IdtState), Registrable registrations →
    Registered registrations state.isr80hCommands →
    (Registrable (registrations ++ rest) ∧
      ∃ next, (isr80hRegisterCommands rest).run state = .ok ((), next) ∧
        Registered (registrations ++ rest) next.isr80hCommands) ∨
    (¬ Registrable (registrations ++ rest) ∧
      ∃ message, (isr80hRegisterCommands rest).run state = .error (.panic message)) := by
  intro rest
  induction rest with
  | nil =>
      intro registrations state registrable registered
      rw [List.append_nil]
      exact .inl ⟨registrable, state, rfl, registered⟩
  | cons first rest ih =>
      intro registrations state registrable registered
      obtain ⟨commandId, command⟩ := first
      rw [isr80hRegisterCommands]
      rcases isr80hRegisterCommand_run registered commandId command with
        ⟨free, next, run, registered'⟩ | ⟨refused, message, stopped⟩
      · rw [Exec.bind_of_ok run, List.append_cons]
        refine ih (registrations ++ [(commandId, command)]) next ⟨?_, ?_⟩ registered'
        · intro registration member
          rcases List.mem_append.mp member with old | new
          · exact registrable.inRange registration old
          · rw [List.mem_singleton.mp new]
            exact ⟨free.1, free.2.1⟩
        · refine List.pairwise_append.mpr ⟨registrable.once, List.pairwise_singleton _ _, ?_⟩
          rintro ⟨other, function⟩ member _ last same
          rw [List.mem_singleton.mp last] at same
          change other = commandId at same
          exact free.2.2 function (same ▸ member)
      · rw [Exec.bind_of_error stopped]
        exact .inr ⟨fun whole => refused (registrable_append whole), message, rfl⟩

end Commands

/-- `isr80h_handle_command` calls the function that is registered for the command, and does nothing
if there is none. -/
structure Dispatches (registrations : List (Int × UInt32)) (commands : List UInt32) : Prop where
  registered : ∀ call commandId command frame kernel, command ≠ 0 →
    (commandId, command) ∈ registrations →
    (isr80hHandleCommandWith commands call commandId frame).run kernel =
      (call command frame).run kernel
  missing : ∀ call commandId frame kernel,
    (∀ command, (commandId, command) ∈ registrations → command = 0) →
    (isr80hHandleCommandWith commands call commandId frame).run kernel = .ok (0, kernel)

section Dispatch

variable {registrations : List (Int × UInt32)} {commands : List UInt32}

/-- At most one function is registered for an id. -/
theorem Registrable.unique (registrable : Registrable registrations) {commandId : Int}
    {first second : UInt32} (firstMember : (commandId, first) ∈ registrations)
    (secondMember : (commandId, second) ∈ registrations) (firstSome : first ≠ 0)
    (secondSome : second ≠ 0) : first = second := by
  by_contra different
  obtain ⟨i, insideFirst, atFirst⟩ := List.getElem_of_mem firstMember
  obtain ⟨j, insideSecond, atSecond⟩ := List.getElem_of_mem secondMember
  have ordered := List.pairwise_iff_getElem.mp registrable.once
  rcases Nat.lt_trichotomy i j with before | same | after
  · have null := ordered i j insideFirst insideSecond before
    rw [atFirst, atSecond] at null
    exact firstSome (null rfl)
  · subst same
    rw [atFirst] at atSecond
    exact different (Prod.mk.inj atSecond).2
  · have null := ordered j i insideSecond insideFirst after
    rw [atFirst, atSecond] at null
    exact secondSome (null rfl)

theorem Registered.dispatches (registered : Registered registrations commands)
    (registrable : Registrable registrations) : Dispatches registrations commands where
  registered := by
    intro call commandId command frame kernel some member
    have range := registrable.inRange _ member
    unfold peachosMaxIsr80hCommands at range
    obtain ⟨index, rfl⟩ : ∃ index : Nat, commandId = index := ⟨commandId.toNat, by omega⟩
    have inside : index < commands.length := by
      rw [registered.length]
      omega
    have here := List.getElem?_eq_getElem inside
    have same : commands[index] = command := by
      have filled : commands[index] ≠ 0 := fun null =>
        some (registered.null index (null ▸ here) command member)
      exact registrable.unique (registered.function index _ here filled) member filled some
    rw [same] at here
    have found : commands[(index : Int).toNat]? = Option.some command := by
      rw [Int.toNat_natCast, here]
    rw [isr80hHandleCommandWith, if_neg (by unfold peachosMaxIsr80hCommands; omega),
      Exec.bind_of_ok (tableEntry_run found kernel), if_neg some]
  missing := by
    intro call commandId frame kernel none
    rw [isr80hHandleCommandWith]
    split
    · rfl
    next range =>
      unfold peachosMaxIsr80hCommands at range
      obtain ⟨index, rfl⟩ : ∃ index : Nat, commandId = index := ⟨commandId.toNat, by omega⟩
      have inside : index < commands.length := by
        rw [registered.length]
        omega
      have here := List.getElem?_eq_getElem inside
      have null : commands[index] = 0 := by
        by_contra filled
        exact filled (none _ (registered.function index _ here filled))
      rw [null] at here
      have found : commands[(index : Int).toNat]? = some 0 := by rw [Int.toNat_natCast, here]
      rw [Exec.bind_of_ok (tableEntry_run found kernel), if_pos rfl]
      rfl

end Dispatch

/-- **The commands of `int 0x80`.** From the empty table, a sequence of registrations completes if its
ids are in the range and none comes again after a function, other than null, was registered for it;
each command then leads to its function and every other to none. Any other sequence ends in a
panic. -/
theorem isr80hRegisterCommands_dispatches (registrations : List (Int × UInt32))
    {before : IdtState} (empty : before.isr80hCommands = List.replicate 1024 0) :
    (Registrable registrations ∧
      ∃ after, (isr80hRegisterCommands registrations).run before = .ok ((), after) ∧
        Dispatches registrations after.isr80hCommands) ∨
    (¬ Registrable registrations ∧
      ∃ message, (isr80hRegisterCommands registrations).run before =
        .error (.panic message)) := by
  have nothing : Registrable [] :=
    ⟨fun _ member => absurd member List.not_mem_nil, List.Pairwise.nil⟩
  rcases isr80hRegisterCommands_run registrations [] before nothing
    (by rw [empty]; exact registered_empty) with ⟨registrable, after, run, registered⟩ | stopped
  · exact .inl ⟨registrable, after, run, registered.dispatches registrable⟩
  · exact .inr stopped

/-- Two commands, and then one of them again. -/
theorem isr80hRegisterCommands_dispatches_twice :
    ∃ message, (isr80hRegisterCommands [(0, 0x00101000), (1, 0x00101100), (0, 0x00101200)]).run
      ⟨fun _ => 0, ⟨0, 0⟩, [], List.replicate 1024 0, ⟨0, 0⟩⟩ = .error (.panic message) := by
  rcases isr80hRegisterCommands_dispatches [(0, 0x00101000), (1, 0x00101100), (0, 0x00101200)]
    (show (IdtState.mk (fun _ => 0) ⟨0, 0⟩ [] (List.replicate 1024 0) ⟨0, 0⟩).isr80hCommands =
      List.replicate 1024 0 from rfl) with ⟨registrable, _⟩ | ⟨_, stopped⟩
  · have null := List.pairwise_iff_getElem.mp registrable.once 0 2 (by decide) (by decide)
      (by decide) rfl
    exact absurd null (by decide)
  · exact stopped

end Peachos
