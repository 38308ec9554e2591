import Peachos.Foundation.Exec

/-! # Programs that access ports

A program writes to ports, reads answers from them, and stores words. The answers are a list, in
the order in which they are read; a program that needs one more waits, and its fault is the list
of its accesses until then. So a program on every list of answers is a program on every timing.
-/

namespace Ports

/-- An access of a program to a port or to memory. -/
inductive Access where
  | out (port : BitVec 16) (value : BitVec 8)
  | inByte (port : BitVec 16) (value : BitVec 8)
  | inWord (port : BitVec 16) (value : BitVec 16)
  | store (address : BitVec 32) (value : BitVec 16)
  deriving DecidableEq, Repr

/-- The answers that are left, and the accesses so far. -/
structure Line where
  answers : List (BitVec 16)
  accesses : List Access := []

namespace Line

def record (line : Line) (access : Access) : Line :=
  { line with accesses := line.accesses ++ [access] }

/-- The answer that comes next was read by the given access. -/
def receive (line : Line) (answers : List (BitVec 16)) (access : Access) : Line where
  answers := answers
  accesses := line.accesses ++ [access]

end Line

/-- A program that accesses ports. -/
abbrev P := Exec (List Access) Line

def outByte (port : BitVec 16) (value : BitVec 8) : P Unit :=
  Exec.update fun line => line.record (.out port value)

/-- The low byte of the answer. -/
def inByte (port : BitVec 16) : P (BitVec 8) := Exec.of fun line =>
  match line.answers with
  | [] => .error line.accesses
  | answer :: answers =>
      .ok (answer.setWidth 8, line.receive answers (.inByte port (answer.setWidth 8)))

def inWord (port : BitVec 16) : P (BitVec 16) := Exec.of fun line =>
  match line.answers with
  | [] => .error line.accesses
  | answer :: answers => .ok (answer, line.receive answers (.inWord port answer))

def storeWord (address : BitVec 32) (value : BitVec 16) : P Unit :=
  Exec.update fun line => line.record (.store address value)

/-- The accesses of `readUntil` while there are answers. -/
def readUntilFrom (port : BitVec 16) (ready : BitVec 8 → Bool) :
    (answers : List (BitVec 16)) → (accesses : List Access) → Except (List Access) (Unit × Line)
  | [], accesses => .error accesses
  | answer :: answers, accesses =>
      let value := answer.setWidth 8
      let accesses := accesses ++ [.inByte port value]
      if ready value then .ok ((), { answers := answers, accesses := accesses })
      else readUntilFrom port ready answers accesses

/-- Read bytes from a port until one is ready. -/
def readUntil (port : BitVec 16) (ready : BitVec 8 → Bool) : P Unit :=
  Exec.of fun line => readUntilFrom port ready line.answers line.accesses

/-- The loop around a read. -/
theorem readUntil_eq (port : BitVec 16) (ready : BitVec 8 → Bool) (line : Line) :
    (readUntil port ready).run line = (inByte port >>= fun value =>
      if ready value then pure () else readUntil port ready).run line := by
  obtain ⟨answers, accesses⟩ := line
  cases answers with
  | nil => rfl
  | cons answer answers =>
      have read : (inByte port).run ⟨answer :: answers, accesses⟩ = .ok (_, _) := rfl
      rw [Exec.bind_of_ok read]
      by_cases holds : ready (answer.setWidth 8)
      · simp [readUntil, readUntilFrom, holds, Line.receive]
      · simp [readUntil, readUntilFrom, holds, Line.receive]

/-- What is seen of a program: its accesses, and whether it returned or waits. -/
structure Outcome where
  accesses : List Access
  returned : Bool
  deriving DecidableEq, Repr

variable {α β : Type}

def outcome (program : P α) (line : Line) : Outcome :=
  match program.run line with
  | .ok (_, final) => ⟨final.accesses, true⟩
  | .error accesses => ⟨accesses, false⟩

/-- The values that were written to a port. -/
def written (port : BitVec 16) (accesses : List Access) : List (BitVec 8) :=
  accesses.filterMap fun
    | .out port' value => if port' = port then some value else none
    | _ => none

/-- The words that were stored, with their addresses. -/
def stored (accesses : List Access) : List (BitVec 32 × BitVec 16) :=
  accesses.filterMap fun
    | .store address value => some (address, value)
    | _ => none

/-- The addresses of `count` words from `ptr` on. -/
def wordAddresses (ptr : BitVec 32) (count : Nat) : List (BitVec 32) :=
  (List.range count).map fun k => ptr + BitVec.ofNat 32 (2 * k)

theorem wordAddresses_add (ptr : BitVec 32) (first rest : Nat) :
    wordAddresses ptr (first + rest) =
      wordAddresses ptr first ++ wordAddresses (ptr + BitVec.ofNat 32 (2 * first)) rest := by
  simp [wordAddresses, List.range_add, Nat.mul_add, BitVec.ofNat_add, BitVec.add_assoc]

section Adds

/-- The program writes to no port. When it returns, its result and the words that it has stored
satisfy `post`. -/
def OnlyReads (program : P α) (post : α → List (BitVec 32 × BitVec 16) → Prop) : Prop :=
  ∀ line, ∃ added, (∀ port, written port added = []) ∧
    match program.run line with
    | .ok (value, final) => final.accesses = line.accesses ++ added ∧ post value (stored added)
    | .error accesses => accesses = line.accesses ++ added

namespace OnlyReads

variable {post : α → List (BitVec 32 × BitVec 16) → Prop}

theorem pure {value : α} (holds : post value []) : OnlyReads (Pure.pure value) post :=
  fun _ => ⟨[], fun _ => rfl, (List.append_nil _).symm, holds⟩

theorem mono {program : P α} {post' : α → List (BitVec 32 × BitVec 16) → Prop}
    (reads : OnlyReads program post) (weaker : ∀ value words, post value words → post' value words) :
    OnlyReads program post' := by
  intro line
  obtain ⟨added, silent, rest⟩ := reads line
  refine ⟨added, silent, ?_⟩
  cases run : program.run line with
  | error accesses =>
      rw [run] at rest
      exact rest
  | ok result =>
      rw [run] at rest
      exact ⟨rest.1, weaker _ _ rest.2⟩

theorem inByte {port : BitVec 16} {post : BitVec 8 → List (BitVec 32 × BitVec 16) → Prop}
    (holds : ∀ value, post value []) : OnlyReads (inByte port) post := by
  rintro ⟨answers, accesses⟩
  cases answers with
  | nil => exact ⟨[], fun _ => rfl, (List.append_nil _).symm⟩
  | cons answer answers => exact ⟨[_], fun _ => rfl, rfl, holds _⟩

theorem inWord {port : BitVec 16} {post : BitVec 16 → List (BitVec 32 × BitVec 16) → Prop}
    (holds : ∀ value, post value []) : OnlyReads (inWord port) post := by
  rintro ⟨answers, accesses⟩
  cases answers with
  | nil => exact ⟨[], fun _ => rfl, (List.append_nil _).symm⟩
  | cons answer answers => exact ⟨[_], fun _ => rfl, rfl, holds _⟩

theorem storeWord {address : BitVec 32} {value : BitVec 16}
    {post : Unit → List (BitVec 32 × BitVec 16) → Prop} (holds : post () [(address, value)]) :
    OnlyReads (storeWord address value) post :=
  fun _ => ⟨[_], fun _ => rfl, rfl, holds⟩

theorem bind {program : P α} {next : α → P β} {post' : β → List (BitVec 32 × BitVec 16) → Prop}
    (first : OnlyReads program post) (rest : ∀ value before, post value before →
      OnlyReads (next value) fun result after => post' result (before ++ after)) :
    OnlyReads (program >>= next) post' := by
  intro line
  obtain ⟨added, silent, first⟩ := first line
  cases run : program.run line with
  | error accesses =>
      rw [run] at first
      exact ⟨added, silent, by rw [Exec.bind_of_error run]; exact first⟩
  | ok result =>
      rw [run] at first
      obtain ⟨same, holds⟩ := first
      obtain ⟨more, silent', rest⟩ := rest result.1 _ holds result.2
      refine ⟨added ++ more, fun port => ?_, ?_⟩
      · rw [written, List.filterMap_append, ← written, ← written, silent, silent']
        rfl
      · rw [Exec.bind_of_ok run, stored, List.filterMap_append, ← List.append_assoc, ← same]
        exact rest

theorem readUntil {port : BitVec 16} {ready : BitVec 8 → Bool}
    {post : Unit → List (BitVec 32 × BitVec 16) → Prop} (holds : post () []) :
    OnlyReads (readUntil port ready) post := by
  rintro ⟨answers, accesses⟩
  induction answers generalizing accesses with
  | nil => exact ⟨[], fun _ => rfl, (List.append_nil _).symm⟩
  | cons answer answers ih =>
      by_cases here : ready (answer.setWidth 8)
      · refine ⟨[.inByte port (answer.setWidth 8)], fun _ => rfl, ?_⟩
        simpa [Ports.readUntil, readUntilFrom, here, stored] using holds
      · obtain ⟨added, silent, rest⟩ := ih (accesses ++ [.inByte port (answer.setWidth 8)])
        refine ⟨.inByte port (answer.setWidth 8) :: added, silent, ?_⟩
        simpa [Ports.readUntil, readUntilFrom, here, stored] using rest

end OnlyReads

end Adds

end Ports
