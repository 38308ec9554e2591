import Peachos.Foundation.Padding
import Peachos.Fs.DirectorySearch

/-! # The name of a directory entry, byte by byte

`fat16_get_full_relative_filename` writes through a pointer into a buffer of its caller, and the
lookup compares the buffer with a component of the path. Here the buffer and the component are
memory: a store or a load outside of them is a fault, and the addresses in the directory entry that
are read are recorded. The functions compute what `fat16GetFullRelativeFilename` and `istrncmp` do
on lists (`matchName_run`).
-/

namespace Peachos

open CInt Padding Window

/-- The memory of the functions: a directory entry from its first byte on, the buffer, the
component of the path, and the reads of the entry so far. -/
structure NameMachine where
  entry : Nat → UInt8
  out : List UInt8
  name : List UInt8 := []
  reads : List Nat := []

/-- A program over that memory. -/
abbrev NameM := Exec Fault NameMachine

/-- The size of the field `filename`, the first one of an entry. -/
abbrev sizeofFilename : Nat := 8

/-- The size of the field `ext`, which follows it. -/
abbrev sizeofExt : Nat := 3

namespace NameM

def readEntry (address : Nat) : NameM UInt8 := do
  Exec.update fun machine => { machine with reads := machine.reads ++ [address] }
  Exec.read fun machine => machine.entry address

def readOut (address : Nat) : NameM UInt8 :=
  Exec.demand (.bufferIndex address) fun machine => machine.out[address]?

def readName (address : Nat) : NameM UInt8 :=
  Exec.demand (.bufferIndex address) fun machine => machine.name[address]?

def writeOut (address : Nat) (value : UInt8) : NameM Unit := Exec.of fun machine =>
  if address < machine.out.length then
    .ok ((), { machine with out := machine.out.set address value })
  else .error (.bufferIndex address)

def memset (ptr : Nat) (c : UInt8) : (size : Nat) → NameM Unit
  | 0 => pure ()
  | size + 1 => do
      writeOut ptr c
      memset (ptr + 1) c size

/-- The condition on a character of a field: it is neither a zero nor a space. -/
def isPrinted (address : Nat) : NameM Bool := do
  let character ← readEntry address
  if character = 0x00 then pure false
  else do
    let character ← readEntry address
    pure (character != 0x20)

/-- The loop of `fat16_to_proper_string`: the pointer that it leaves in `*out`. -/
def fat16ToProperStringLoop (size : Nat) : (fuel out address i : Nat) → NameM Nat
  | 0, _, _, _ => Exec.fault .diverges
  | fuel + 1, out, address, i => do
      let printed ← isPrinted address
      if printed then do
        let character ← readEntry address
        writeOut out character
        -- The comparison is one of `size_t`.
        if i ≥ u32 ((size : Int) - 1) then pure (out + 1)
        else fat16ToProperStringLoop size fuel (out + 1) (address + 1) (i + 1)
      else pure out

def fat16ToProperString (out address size : Nat) : NameM Nat := do
  let out ← fat16ToProperStringLoop size (u32 ((size : Int) - 1) + 1) out address 0
  writeOut out 0x00
  pure out

def fat16GetFullRelativeFilename (maxLen : Nat) : NameM Unit := do
  memset 0 0x00 maxLen
  let outTmp ← fat16ToProperString 0 0 sizeofFilename
  let printed ← isPrinted sizeofFilename
  if printed then do
    writeOut outTmp 46
    let _ ← fat16ToProperString (outTmp + 1) sizeofFilename sizeofExt
    pure ()

/-- `tolower`, for the signed `char`. -/
def tolower (s1 : Int8) : Int8 := if 65 ≤ s1 ∧ s1 ≤ 90 then s1 + 32 else s1

/-- `istrncmp` of the buffer and the component, from byte `i` on. -/
def istrncmp : (n i : Nat) → NameM Int
  | 0, _ => pure 0
  | n + 1, i => do
      let u1 ← readOut i
      let u2 ← readName i
      if u1 ≠ u2 ∧ tolower u1.toInt8 ≠ tolower u2.toInt8 then pure ((u1.toNat : Int) - u2.toNat)
      else if u1 = 0 then pure 0
      else istrncmp n (i + 1)

/-- The comparison of a turn of `fat16_find_item_in_directory`. -/
def matchName : NameM Int := do
  fat16GetFullRelativeFilename peachosMaxPath
  istrncmp peachosMaxPath 0

end NameM

/-- A character of a name that is neither the terminator nor the padding. -/
def Printed (character : UInt8) : Prop := character ≠ 0x00 ∧ character ≠ 0x20

instance (character : UInt8) : Decidable (Printed character) :=
  inferInstanceAs (Decidable (_ ∧ _))

/-- The characters of a field before its end or the first one that is not printed. -/
def printedText (entry : Nat → UInt8) (address size : Nat) : List UInt8 :=
  (window entry address size).takeWhile fun character => decide (Printed character)

theorem length_printedText_le (entry : Nat → UInt8) (address size : Nat) :
    (printedText entry address size).length ≤ size := by
  have taken : (printedText entry address size).length ≤ (window entry address size).length :=
    (List.takeWhile_sublist _).length_le
  rwa [length_window] at taken

/-- The name of an entry, from its bytes. -/
theorem itemName_window (entry : Nat → UInt8) :
    itemName (window entry 0 sizeofFatDirectoryItem) = printedText entry 0 8 ++
      if Printed (entry 8) then 46 :: printedText entry 8 3 else [] := by
  have ext : ((window entry 0 sizeofFatDirectoryItem).drop 8).take 3 = window entry 8 3 := by
    rw [drop_window entry 0 (by decide), take_window entry _ (by decide), Nat.zero_add]
  have filename : (window entry 0 sizeofFatDirectoryItem).take 8 = window entry 0 8 :=
    take_window entry 0 (by decide)
  rw [itemName, fat16GetFullRelativeFilename, FatDirectoryItem.decode]
  dsimp only
  rw [ext, filename]
  by_cases printed : Printed (entry 8)
  · rw [if_pos printed]
    exact if_pos printed
  · rw [if_neg printed, List.append_nil]
    exact if_neg printed

theorem length_itemName_le (entry : Nat → UInt8) :
    (itemName (window entry 0 sizeofFatDirectoryItem)).length ≤ 12 := by
  have base := length_printedText_le entry 0 8
  have ext := length_printedText_le entry 8 3
  rw [itemName_window, List.length_append]
  split
  · rw [List.length_cons]
    omega
  · rw [List.length_nil]
    omega

theorem tolower_toInt8 (character : UInt8) :
    NameM.tolower character.toInt8 = (toLower character).toInt8 := by
  have all : ∀ byte : Fin 256, NameM.tolower (UInt8.ofFin byte).toInt8 =
      (toLower (UInt8.ofFin byte)).toInt8 := by
    decide +kernel
  exact all character.toFin

theorem tolower_eq_iff {first second : UInt8} :
    NameM.tolower first.toInt8 = NameM.tolower second.toInt8 ↔ toLower first = toLower second := by
  rw [tolower_toInt8, tolower_toInt8]
  exact ⟨congrArg Int8.toUInt8, congrArg UInt8.toInt8⟩

namespace NameM

section Write

variable {entry : Nat → UInt8} {name : List UInt8} {reads : List Nat} {size : Nat}

/-- The program answers `value` with the text `after` in the buffer, and reads only addresses of the
entry that are allowed. -/
def Writes {α : Type} (entry : Nat → UInt8) (name : List UInt8) (size : Nat) (before : List UInt8)
    (program : NameM α) (value : α) (after : List UInt8) (allowed : Nat → Prop) : Prop :=
  ∀ reads, ∃ added, program.run ⟨entry, padded 0 size before, name, reads⟩ =
    .ok (value, ⟨entry, padded 0 size after, name, reads ++ added⟩) ∧ ∀ read ∈ added, allowed read

variable {before middle after : List UInt8} {allowed : Nat → Prop}

theorem Writes.pure {α : Type} (value : α) :
    Writes entry name size before (Pure.pure value) value before allowed :=
  fun reads => ⟨[], by rw [Exec.run_pure, List.append_nil], nofun⟩

theorem Writes.bind {α β : Type} {program : NameM α} {next : α → NameM β} {value : α} {result : β}
    (first : Writes entry name size before program value middle allowed)
    (rest : Writes entry name size middle (next value) result after allowed) :
    Writes entry name size before (program >>= next) result after allowed := by
  intro reads
  obtain ⟨added, run, here⟩ := first reads
  obtain ⟨later, run', there⟩ := rest (reads ++ added)
  refine ⟨added ++ later, ?_, fun read member => ?_⟩
  · rw [Exec.bind_of_ok run, run', List.append_assoc]
  · exact (List.mem_append.mp member).elim (here read) (there read)

theorem Writes.mono {α : Type} {program : NameM α} {value : α} {wider : Nat → Prop}
    (writes : Writes entry name size before program value after allowed)
    (within : ∀ address, allowed address → wider address) :
    Writes entry name size before program value after wider := by
  intro reads
  obtain ⟨added, run, here⟩ := writes reads
  exact ⟨added, run, fun read member => within read (here read member)⟩

theorem readEntry_writes {address : Nat} (permitted : allowed address) :
    Writes entry name size before (readEntry address) (entry address) before allowed := by
  refine fun reads => ⟨[address], rfl, fun read member => ?_⟩
  rw [List.mem_singleton.mp member]
  exact permitted

theorem writeOut_writes {character : UInt8} (fits : before.length < size) :
    Writes entry name size before (writeOut before.length character) ()
      (before ++ [character]) allowed := by
  refine fun reads => ⟨[], ?_, nofun⟩
  have inside : before.length < (padded 0 size before).length := by
    rwa [length_padded fits.le]
  rw [writeOut, Exec.run_of, if_pos inside]
  dsimp only
  rw [padded_set fits, List.append_nil]

theorem writeOut_terminator (fits : before.length < size) :
    Writes entry name size before (writeOut before.length 0x00) () before allowed := by
  refine fun reads => ⟨[], ?_, nofun⟩
  have inside : before.length < (padded 0 size before).length := by
    rwa [length_padded fits.le]
  rw [writeOut, Exec.run_of, if_pos inside]
  dsimp only
  rw [padded_set_blank fits, List.append_nil]

theorem isPrinted_writes {address : Nat} (permitted : allowed address) :
    Writes entry name size before (isPrinted address) (decide (Printed (entry address))) before
      allowed := by
  have once := @readEntry_writes entry name size before _ _
    permitted
  refine once.bind ?_
  by_cases zero : entry address = 0x00
  · have value : decide (Printed (entry address)) = false :=
      decide_eq_false fun printed => printed.1 zero
    rw [if_pos zero, value]
    exact .pure false
  · have value : decide (Printed (entry address)) = (entry address != 0x20) := by
      rw [Bool.eq_iff_iff, decide_eq_true_eq, bne_iff_ne]
      exact and_iff_right zero
    rw [if_neg zero, value]
    exact once.bind (.pure _)

/-- The rest of a field is copied. -/
theorem fat16ToProperStringLoop_writes {field : Nat} (small : field < 4294967296) :
    ∀ (fuel : Nat) (before : List UInt8) (address i : Nat), i < field → field ≤ fuel + i →
    before.length + (printedText entry address (field - i)).length < size →
    Writes entry name size before
      (fat16ToProperStringLoop field fuel before.length address i)
      (before ++ printedText entry address (field - i)).length
      (before ++ printedText entry address (field - i))
      (fun read => address ≤ read ∧ read < address + (field - i)) := by
  intro fuel
  induction fuel with
  | zero =>
      intro before address i inside enough
      omega
  | succ fuel ih =>
      intro before address i inside enough fits
      have here : address ≤ address ∧ address < address + (field - i) := by omega
      have text : printedText entry address (field - i) = if Printed (entry address) then
          entry address :: printedText entry (address + 1) (field - (i + 1)) else [] := by
        rw [printedText, show field - i = field - (i + 1) + 1 by omega, window_succ,
          List.takeWhile_cons]
        simp only [decide_eq_true_eq, printedText]
      have test := @isPrinted_writes entry name size before
        (fun read => address ≤ read ∧ read < address + (field - i)) _
        here
      rw [fat16ToProperStringLoop]
      refine test.bind ?_
      by_cases printed : Printed (entry address)
      · rw [if_pos printed] at text
        rw [text, List.length_cons] at fits
        rw [text, decide_eq_true printed, if_pos rfl]
        refine (readEntry_writes here).bind ((writeOut_writes (by omega)).bind ?_)
        have joined (rest : List UInt8) : before ++ entry address :: rest =
            before ++ [entry address] ++ rest := by
          rw [List.append_assoc, List.singleton_append]
        have count : before.length + 1 = (before ++ [entry address]).length := by
          rw [List.length_append, List.length_singleton]
        have last : u32 ((field : Int) - 1) = field - 1 := by
          unfold u32
          omega
        rw [last]
        by_cases ends : i ≥ field - 1
        · have none : printedText entry (address + 1) (field - (i + 1)) = [] := by
            rw [show field - (i + 1) = 0 by omega]
            rfl
          rw [if_pos ends, none, count]
          exact .pure _
        · rw [if_neg ends, joined (printedText entry (address + 1) _), count]
          refine (ih (before ++ [entry address]) (address + 1) (i + 1) (by omega) (by omega)
            (by omega)).mono fun read within => ?_
          omega
      · rw [if_neg printed] at text
        rw [text, decide_eq_false printed, if_neg Bool.false_ne_true, List.append_nil]
        exact .pure _

/-- **One field.** -/
theorem fat16ToProperString_writes {address field : Nat} (positive : 0 < field)
    (small : field < 4294967296)
    (fits : before.length + (printedText entry address field).length < size) :
    Writes entry name size before (fat16ToProperString before.length address field)
      (before ++ printedText entry address field).length
      (before ++ printedText entry address field)
      (fun read => address ≤ read ∧ read < address + field) := by
  have fuel : u32 ((field : Int) - 1) + 1 = field := by
    unfold u32
    omega
  rw [fat16ToProperString, fuel]
  refine (fat16ToProperStringLoop_writes small field before address 0 positive le_rfl fits).bind ?_
  refine (writeOut_terminator ?_).bind (.pure _)
  rw [List.length_append]
  exact fits

theorem memset_run : ∀ (size : Nat) (before rest : List UInt8), rest.length = size →
    (memset before.length 0x00 size).run ⟨entry, before ++ rest, name, reads⟩ =
      .ok ((), ⟨entry, before ++ List.replicate size 0, name, reads⟩) := by
  intro size
  induction size with
  | zero =>
      intro before rest none
      rw [List.length_eq_zero_iff.mp none]
      rfl
  | succ size ih =>
      intro before rest length
      obtain ⟨head, tail, rfl⟩ := List.exists_cons_of_length_eq_add_one length
      have inside : before.length < (before ++ head :: tail).length := by
        rw [List.length_append, List.length_cons]
        omega
      have first : (writeOut before.length 0x00).run ⟨entry, before ++ head :: tail, name, reads⟩ =
          .ok ((), ⟨entry, before ++ [0x00] ++ tail, name, reads⟩) := by
        rw [writeOut, Exec.run_of, if_pos inside]
        dsimp only
        rw [List.set_append_right _ _ le_rfl, Nat.sub_self, List.set_cons_zero, List.append_assoc,
          List.singleton_append]
      have others := ih (before ++ [0x00]) tail (Nat.succ.inj length)
      rw [List.length_append, List.length_singleton] at others
      rw [memset, Exec.bind_of_ok first, others, List.append_assoc, List.singleton_append,
        List.replicate_succ]

/-- **The name of an entry.** It is written into the buffer, zeros after it, and only the eleven bytes of
its fields are read. -/
theorem fat16GetFullRelativeFilename_run {out : List UInt8} (buffer : 13 ≤ out.length) :
    ∃ added, (fat16GetFullRelativeFilename out.length).run ⟨entry, out, name, reads⟩ =
      .ok ((), ⟨entry, padded 0 out.length (itemName (window entry 0 sizeofFatDirectoryItem)), name,
        reads ++ added⟩) ∧
      ∀ read ∈ added, read < 11 := by
  have base := length_printedText_le entry 0 8
  have ext := length_printedText_le entry 8 3
  have cleared : (memset 0 0x00 out.length).run ⟨entry, out, name, reads⟩ =
      .ok ((), ⟨entry, padded 0 out.length [], name, reads⟩) :=
    memset_run out.length [] out rfl
  have first := (@fat16ToProperString_writes entry name out.length [] 0 8 (by decide) (by decide)
    (by rw [List.length_nil]; omega)).mono fun read within => (show read < 11 by omega)
  have test := @isPrinted_writes entry name out.length ([] ++ printedText entry 0 8) (· < 11) 8
    (by decide)
  rw [fat16GetFullRelativeFilename, Exec.bind_of_ok cleared]
  refine (first.bind (test.bind ?_)) reads
  rw [List.nil_append, itemName_window]
  by_cases printed : Printed (entry 8)
  · have second := (@fat16ToProperString_writes entry name out.length
      (printedText entry 0 8 ++ [46]) 8 3 (by decide) (by decide)
      (by rw [List.length_append, List.length_singleton]; omega)).mono
        fun read within => (show read < 11 by omega)
    rw [List.length_append, List.length_singleton] at second
    rw [decide_eq_true printed, if_pos rfl, if_pos printed]
    have joined : printedText entry 0 8 ++ 46 :: printedText entry 8 3 =
        printedText entry 0 8 ++ [46] ++ printedText entry 8 3 := by
      rw [List.append_assoc, List.singleton_append]
    rw [joined]
    exact (writeOut_writes (by omega)).bind (second.bind (.pure ()))
  · rw [decide_eq_false printed, if_neg Bool.false_ne_true, if_neg printed, List.append_nil]
    exact .pure ()

end Write

section Compare

variable {text other rest rest' : List UInt8} {machine : NameMachine}

/-- The characters of a text and its terminator. -/
theorem getElem?_terminated {i : Nat} (inside : i ≤ text.length) :
    (text ++ 0 :: rest)[i]? = some ((text.drop i).headD 0) := by
  rcases inside.lt_or_eq with before | rfl
  · rw [List.getElem?_append_left before, List.getElem?_eq_getElem before,
      List.drop_eq_getElem_cons before, List.headD_cons]
  · rw [List.getElem?_append_right le_rfl, Nat.sub_self, List.drop_length]
    rfl

/-- The comparison of two terminated texts. -/
theorem istrncmp_run (out : machine.out = text ++ 0 :: rest)
    (name : machine.name = other ++ 0 :: rest') : ∀ n i : Nat, i ≤ text.length →
    i ≤ other.length → (istrncmp n i).run machine =
      .ok (Peachos.istrncmp (text.drop i) (other.drop i) n, machine) := by
  intro n
  induction n with
  | zero => exact fun i _ _ => rfl
  | succ n ih =>
      intro i inText inOther
      have first : (readOut i).run machine = .ok ((text.drop i).headD 0, machine) :=
        Exec.demand_of_some (by rw [out, getElem?_terminated inText])
      have second : (readName i).run machine = .ok ((other.drop i).headD 0, machine) :=
        Exec.demand_of_some (by rw [name, getElem?_terminated inOther])
      rw [istrncmp, Exec.bind_of_ok first, Exec.bind_of_ok second, Peachos.istrncmp]
      simp only [ne_eq, tolower_eq_iff]
      by_cases different : (text.drop i).headD 0 ≠ (other.drop i).headD 0 ∧
          toLower ((text.drop i).headD 0) ≠ toLower ((other.drop i).headD 0)
      · rw [if_pos different, if_pos different, Exec.run_pure]
      rw [if_neg different, if_neg different]
      by_cases ends : (text.drop i).headD 0 = 0
      · rw [if_pos ends, if_pos ends, Exec.run_pure]
      rw [if_neg ends, if_neg ends]
      -- Neither text ends here, as the characters are equal up to case and not zero.
      have inText' : i < text.length := by
        refine inText.lt_of_ne fun last => ends ?_
        rw [last, List.drop_length]
        rfl
      have inOther' : i < other.length := by
        refine inOther.lt_of_ne fun last => different ?_
        have zero : (other.drop i).headD 0 = 0 := by
          rw [last, List.drop_length]
          rfl
        rw [zero]
        exact ⟨ends, fun same => ends ((toLower_eq_iff (.inl (by decide))).mp same)⟩
      rw [ih (i + 1) inText' inOther', List.tail_drop, List.tail_drop]

end Compare

/-- **The comparison of the lookup.** It completes, and answers what `istrncmp` does for the name of
the entry and the component. -/
theorem matchName_run {entry : Nat → UInt8} {out component rest : List UInt8} {reads : List Nat}
    (buffer : out.length = peachosMaxPath) :
    ∃ final, matchName.run ⟨entry, out, component ++ 0 :: rest, reads⟩ =
      .ok (Peachos.istrncmp (itemName (window entry 0 sizeofFatDirectoryItem)) component
        peachosMaxPath, final) := by
  obtain ⟨added, run, _⟩ := @fat16GetFullRelativeFilename_run entry
    (component ++ 0 :: rest) reads out (by rw [buffer]; decide)
  have short := length_itemName_le entry
  rw [buffer, padded_of_lt (by unfold peachosMaxPath; omega)] at run
  rw [matchName, Exec.bind_of_ok run]
  exact ⟨_, istrncmp_run rfl rfl _ 0 (Nat.zero_le _) (Nat.zero_le _)⟩

end NameM

end Peachos
