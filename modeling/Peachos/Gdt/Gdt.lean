import Mathlib.Data.UInt
import Peachos.Kernel.Objects

/-! # Segment descriptors

`gdt.c` scatters the base, the limit and the type of a segment over the eight bytes of a
descriptor. What the processor reads back from the table is what was asked for
(`gdtStructuredToGdt_decodes`), for every entry that `encodeGdtEntry` accepts.
-/

namespace Peachos

/-- `struct gdt_structured` -/
structure GdtStructured where
  base : UInt32
  limit : UInt32
  type : UInt8
  deriving DecidableEq, Repr

/-- The size of `struct gdt`. -/
abbrev sizeofGdt : Nat := 8

/-- The memory of a descriptor table, by the offset from its start, and the writes to it: the
descriptor that was written and the byte. -/
structure GdtMemory where
  bytes : Nat → UInt8
  writes : List (Nat × Nat) := []

/-- A program over the memory of a descriptor table. -/
abbrev GdtM := Exec Fault GdtMemory

def GdtMemory.put (memory : GdtMemory) (target offset : Nat) (value : UInt8) : GdtMemory where
  bytes := Function.update memory.bytes (target + offset) value
  writes := memory.writes ++ [(target, target + offset)]

/-- Write `target[offset]`. -/
def setTarget (target offset : Nat) (value : UInt8) : GdtM Unit :=
  Exec.update fun memory => memory.put target offset value

/-- Read `target[offset]`. -/
def getTarget (target offset : Nat) : GdtM UInt8 :=
  Exec.read fun memory => memory.bytes (target + offset)

/-- The part of `encodeGdtEntry` that writes a limit of 20 bits, the base and the type. -/
def encodeGdtFields (target : Nat) (base limit : UInt32) (type : UInt8) : GdtM Unit := do
  setTarget target 0 (limit &&& 0xFF).toUInt8
  setTarget target 1 ((limit >>> 8) &&& 0xFF).toUInt8
  let flags ← getTarget target 6
  setTarget target 6 (flags ||| ((limit >>> 16) &&& 0x0F).toUInt8)
  setTarget target 2 (base &&& 0xFF).toUInt8
  setTarget target 3 ((base >>> 8) &&& 0xFF).toUInt8
  setTarget target 4 ((base >>> 16) &&& 0xFF).toUInt8
  setTarget target 7 ((base >>> 24) &&& 0xFF).toUInt8
  setTarget target 5 type

def encodeGdtEntry (target : Nat) (source : GdtStructured) : GdtM Unit :=
  if source.limit > 65536 ∧ source.limit &&& 0xFFF ≠ 0xFFF then
    Exec.fault (.panic "encodeGdtEntry: Invalid argument\n")
  else do
    setTarget target 6 0x40
    if source.limit > 65536 then do
      setTarget target 6 0xC0
      encodeGdtFields target source.base (source.limit >>> 12) source.type
    else encodeGdtFields target source.base source.limit source.type

/-- The loop of `gdt_structured_to_gdt` from descriptor `i` on. -/
def gdtStructuredToGdtLoop : (entries : List GdtStructured) → (i : Nat) → GdtM Unit
  | [], _ => pure ()
  | entry :: entries, i => do
      encodeGdtEntry (sizeofGdt * i) entry
      gdtStructuredToGdtLoop entries (i + 1)

def gdtStructuredToGdt (structuredGdt : List GdtStructured) : GdtM Unit :=
  gdtStructuredToGdtLoop structuredGdt 0

/-- The entry that the processor reads from the descriptor at `start`. -/
def decodeDescriptor (bytes : Nat → UInt8) (start : Nat) : GdtStructured where
  base := UInt32.ofNat (littleEndian
    [bytes (start + 2), bytes (start + 3), bytes (start + 4), bytes (start + 7)])
  limit :=
    let limit := littleEndian [bytes start, bytes (start + 1), bytes (start + 6) &&& 0x0F]
    let granular := bytes (start + 6) &&& 0x80 ≠ 0
    UInt32.ofNat (if granular then (limit <<< 12) ||| 0xFFF else limit)
  type := bytes (start + 5)

/-- The limits that `encodeGdtEntry` does not panic on. -/
def GdtStructured.Encodable (entry : GdtStructured) : Prop :=
  entry.limit ≤ 65536 ∨ entry.limit &&& 0xFFF = 0xFFF

section Bytes

variable (word : UInt32)

theorem toNat_lowByte : (word &&& 0xFF).toUInt8.toNat = word.toNat % 256 := by
  rw [UInt32.toNat_toUInt8, UInt32.toNat_and]
  change (word.toNat &&& (2 ^ 8 - 1)) % 2 ^ 8 = _
  rw [Nat.and_two_pow_sub_one_eq_mod, Nat.mod_mod]

theorem toNat_lowNibble : (word &&& 0x0F).toUInt8.toNat = word.toNat % 16 := by
  rw [UInt32.toNat_toUInt8, UInt32.toNat_and]
  change (word.toNat &&& (2 ^ 4 - 1)) % 2 ^ 8 = _
  rw [Nat.and_two_pow_sub_one_eq_mod]
  omega

theorem toNat_shiftRight {shift : UInt32} (small : shift.toNat < 32) :
    (word >>> shift).toNat = word.toNat / 2 ^ shift.toNat := by
  rw [UInt32.toNat_shiftRight, Nat.mod_eq_of_lt small, Nat.shiftRight_eq_div_pow]

/-- The four bytes of a word. -/
theorem littleEndian_word : littleEndian [(word &&& 0xFF).toUInt8,
    ((word >>> 8) &&& 0xFF).toUInt8, ((word >>> 16) &&& 0xFF).toUInt8,
    ((word >>> 24) &&& 0xFF).toUInt8] = word.toNat := by
  have bound := word.toNat_lt
  have second : (word >>> 8).toNat = word.toNat / 2 ^ 8 := toNat_shiftRight word (by decide)
  have third : (word >>> 16).toNat = word.toNat / 2 ^ 16 := toNat_shiftRight word (by decide)
  have fourth : (word >>> 24).toNat = word.toNat / 2 ^ 24 := toNat_shiftRight word (by decide)
  simp only [littleEndian, List.foldr_cons, List.foldr_nil, toNat_lowByte, second, third, fourth]
  omega

/-- The twenty low bits of a word, in two bytes and a nibble. -/
theorem littleEndian_limit : littleEndian [(word &&& 0xFF).toUInt8,
    ((word >>> 8) &&& 0xFF).toUInt8, ((word >>> 16) &&& 0x0F).toUInt8] =
      word.toNat % 1048576 := by
  have second : (word >>> 8).toNat = word.toNat / 2 ^ 8 := toNat_shiftRight word (by decide)
  have third : (word >>> 16).toNat = word.toNat / 2 ^ 16 := toNat_shiftRight word (by decide)
  simp only [littleEndian, List.foldr_cons, List.foldr_nil, toNat_lowByte, toNat_lowNibble,
    second, third]
  omega

theorem byte_or_and (first second mask : UInt8) :
    (first ||| second) &&& mask = (first &&& mask) ||| (second &&& mask) :=
  UInt8.toBitVec_inj.mp BitVec.and_or_distrib_right

/-- A nibble under flags in the high half of a byte. -/
theorem nibble_of_flags {flags : UInt8} (high : flags &&& 0x0F = 0) :
    (flags ||| (word &&& 0x0F).toUInt8) &&& 0x0F = (word &&& 0x0F).toUInt8 := by
  have low : (word &&& 0x0F).toUInt8 = word.toUInt8 &&& 0x0F := UInt32.toUInt8_and ..
  rw [byte_or_and, high, UInt8.zero_or, low, UInt8.and_assoc]
  rfl

theorem granularity_of_flags (flags : UInt8) :
    (flags ||| (word &&& 0x0F).toUInt8) &&& 0x80 = flags &&& 0x80 := by
  have low : (word &&& 0x0F).toUInt8 = word.toUInt8 &&& 0x0F := UInt32.toUInt8_and ..
  have apart : (0x0F : UInt8) &&& 0x80 = 0 := by decide
  rw [byte_or_and, low, UInt8.and_assoc, apart, UInt8.and_zero, UInt8.or_zero]

end Bytes

/-- The descriptor at `target` was written with the entry, and nothing else. -/
structure Encoded (memory final : GdtMemory) (target : Nat) (entry : GdtStructured) : Prop where
  decoded : decodeDescriptor final.bytes target = entry
  kept : ∀ offset, ¬ (target ≤ offset ∧ offset < target + sizeofGdt) →
    final.bytes offset = memory.bytes offset
  writes : ∃ added, final.writes = memory.writes ++ added ∧
    ∀ write ∈ added, write.1 = target ∧ target ≤ write.2 ∧ write.2 < target + sizeofGdt

section Encode

variable {memory : GdtMemory} {target : Nat} {base limit : UInt32} {type : UInt8}

/-- The memory after the fields are written. -/
def GdtMemory.putFields (memory : GdtMemory) (target : Nat) (base limit : UInt32) (type : UInt8) :
    GdtMemory :=
  let low := (memory.put target 0 (limit &&& 0xFF).toUInt8).put target 1
    ((limit >>> 8) &&& 0xFF).toUInt8
  let flags := low.put target 6 (low.bytes (target + 6) ||| ((limit >>> 16) &&& 0x0F).toUInt8)
  ((((flags.put target 2 (base &&& 0xFF).toUInt8).put target 3
    ((base >>> 8) &&& 0xFF).toUInt8).put target 4 ((base >>> 16) &&& 0xFF).toUInt8).put target 7
    ((base >>> 24) &&& 0xFF).toUInt8).put target 5 type

theorem encodeGdtFields_run : (encodeGdtFields target base limit type).run memory =
    .ok ((), memory.putFields target base limit type) := rfl

/-- The eight bytes of the descriptor. -/
theorem GdtMemory.putFields_bytes (memory : GdtMemory) (target : Nat) (base limit : UInt32)
    (type : UInt8) :
    let final := (memory.putFields target base limit type).bytes
    [final target, final (target + 1)] = [(limit &&& 0xFF).toUInt8,
        ((limit >>> 8) &&& 0xFF).toUInt8] ∧
      final (target + 6) = memory.bytes (target + 6) ||| ((limit >>> 16) &&& 0x0F).toUInt8 ∧
      [final (target + 2), final (target + 3), final (target + 4), final (target + 7)] =
        [(base &&& 0xFF).toUInt8, ((base >>> 8) &&& 0xFF).toUInt8,
          ((base >>> 16) &&& 0xFF).toUInt8, ((base >>> 24) &&& 0xFF).toUInt8] ∧
      final (target + 5) = type := by
  refine ⟨?_, ?_, ?_, ?_⟩ <;> simp [putFields, put]

theorem GdtMemory.put_other (memory : GdtMemory) {target offset other : Nat} (value : UInt8)
    (different : other ≠ target + offset) :
    (memory.put target offset value).bytes other = memory.bytes other :=
  Function.update_of_ne different ..

theorem GdtMemory.putFields_kept (memory : GdtMemory) {target offset : Nat} (base limit : UInt32)
    (type : UInt8) (outside : ¬ (target ≤ offset ∧ offset < target + sizeofGdt)) :
    (memory.putFields target base limit type).bytes offset = memory.bytes offset := by
  have apart : ∀ inner < sizeofGdt, offset ≠ target + inner := by
    intro inner inside
    omega
  unfold putFields
  dsimp only
  rw [put_other _ _ (apart 5 (by decide)), put_other _ _ (apart 7 (by decide)),
    put_other _ _ (apart 4 (by decide)), put_other _ _ (apart 3 (by decide)),
    put_other _ _ (apart 2 (by decide)), put_other _ _ (apart 6 (by decide)),
    put_other _ _ (apart 1 (by decide)), put_other _ _ (apart 0 (by decide))]

/-- What the processor reads from the fields, under flags that leave the low nibble clear. -/
theorem decodeDescriptor_putFields (high : memory.bytes (target + 6) &&& 0x0F = 0) :
    decodeDescriptor (memory.putFields target base limit type).bytes target =
      { base := base
        limit := UInt32.ofNat (if memory.bytes (target + 6) &&& 0x80 ≠ 0
          then ((limit.toNat % 1048576) <<< 12) ||| 0xFFF else limit.toNat % 1048576)
        type := type } := by
  obtain ⟨low, flags, bases, types⟩ := memory.putFields_bytes target base limit type
  obtain ⟨first, second⟩ := List.cons_eq_cons.mp low
  unfold decodeDescriptor
  dsimp only
  rw [bases, types, littleEndian_word, flags, granularity_of_flags, nibble_of_flags _ high, first,
    (List.cons_eq_cons.mp second).1, littleEndian_limit, UInt32.ofNat_toNat]

/-- The fields written under the flags in the sixth byte. -/
theorem encoded_putFields {before : GdtMemory} {entry : GdtStructured} {added : List (Nat × Nat)}
    (decoded : decodeDescriptor (memory.putFields target base limit type).bytes target = entry)
    (kept : ∀ offset, ¬ (target ≤ offset ∧ offset < target + sizeofGdt) →
      memory.bytes offset = before.bytes offset)
    (writes : memory.writes = before.writes ++ added)
    (inside : ∀ write ∈ added, write = (target, target + 6)) :
    Encoded before (memory.putFields target base limit type) target entry where
  decoded := decoded
  kept := fun offset outside => by
    rw [memory.putFields_kept base limit type outside, kept offset outside]
  writes := by
    refine ⟨added ++ [(target, target + 0), (target, target + 1), (target, target + 6),
      (target, target + 2), (target, target + 3), (target, target + 4), (target, target + 7),
      (target, target + 5)], ?_, ?_⟩
    · simp only [GdtMemory.putFields, GdtMemory.put, writes, List.append_assoc, List.cons_append,
        List.nil_append]
    · intro write member
      rcases List.mem_append.mp member with flags | fields
      · rw [inside write flags]
        exact ⟨rfl, Nat.le_add_right _ _, Nat.add_lt_add_left (by decide) _⟩
      · simp only [List.mem_cons, List.not_mem_nil, or_false] at fields
        rcases fields with rfl | rfl | rfl | rfl | rfl | rfl | rfl | rfl <;>
          exact ⟨rfl, Nat.le_add_right _ _, Nat.add_lt_add_left (by decide) _⟩

/-- A granular limit is its upper twenty bits and ones below. -/
theorem granular_limit (ones : limit &&& 0xFFF = 0xFFF) :
    ((limit >>> 12).toNat % 1048576) <<< 12 ||| 0xFFF = limit.toNat := by
  have bound := limit.toNat_lt
  have low : limit.toNat % 2 ^ 12 = 4095 := by
    have masked := congrArg UInt32.toNat ones
    rw [UInt32.toNat_and] at masked
    rwa [← Nat.and_two_pow_sub_one_eq_mod]
  have shifted : (limit >>> 12).toNat = limit.toNat / 2 ^ 12 := toNat_shiftRight limit (by decide)
  rw [shifted, Nat.shiftLeft_eq, Nat.mul_comm, ← Nat.two_pow_add_eq_or_of_lt (by decide)]
  omega

/-- **One entry.** -/
theorem encodeGdtEntry_encoded {entry : GdtStructured} (encodable : entry.Encodable)
    (memory : GdtMemory) (target : Nat) :
    ∃ final, (encodeGdtEntry target entry).run memory = .ok ((), final) ∧
      Encoded memory final target entry := by
  have accepted : ¬ (entry.limit > 65536 ∧ entry.limit &&& 0xFFF ≠ 0xFFF) := by
    rintro ⟨large, cleared⟩
    rcases encodable with small | ones
    · exact absurd large (UInt32.not_lt.mpr small)
    · exact cleared ones
  rw [encodeGdtEntry, if_neg accepted]
  have flagged : (setTarget target 6 0x40).run memory = .ok ((), memory.put target 6 0x40) := rfl
  have kept : ∀ offset, ¬ (target ≤ offset ∧ offset < target + sizeofGdt) →
      offset ≠ target + 6 := by
    intro offset outside
    unfold sizeofGdt at outside
    omega
  rw [Exec.bind_of_ok flagged]
  by_cases large : entry.limit > 65536
  · have ones : entry.limit &&& 0xFFF = 0xFFF := by
      by_contra some
      exact accepted ⟨large, some⟩
    have granular : (setTarget target 6 0xC0).run (memory.put target 6 0x40) =
        .ok ((), (memory.put target 6 0x40).put target 6 0xC0) := rfl
    have flags : ((memory.put target 6 0x40).put target 6 0xC0).bytes (target + 6) = 0xC0 :=
      Function.update_self ..
    rw [if_pos large, Exec.bind_of_ok granular]
    refine ⟨_, encodeGdtFields_run, @encoded_putFields _ _ _ _ _ _ _
      [(target, target + 6), (target, target + 6)] ?_ ?_ ?_ ?_⟩
    · rw [decodeDescriptor_putFields (by rw [flags]; decide), flags, if_pos (by decide),
        granular_limit ones, UInt32.ofNat_toNat]
    · intro offset outside
      rw [GdtMemory.put_other _ _ (kept offset outside),
        GdtMemory.put_other _ _ (kept offset outside)]
    · simp only [GdtMemory.put, List.append_assoc, List.cons_append, List.nil_append]
    · simp only [List.mem_cons, List.not_mem_nil, or_false, or_self, imp_self, implies_true]
  · have small : entry.limit.toNat ≤ 65536 := UInt32.not_lt.mp large
    have flags : (memory.put target 6 0x40).bytes (target + 6) = 0x40 := Function.update_self ..
    rw [if_neg large]
    refine ⟨_, encodeGdtFields_run, @encoded_putFields _ _ _ _ _ _ _
      [(target, target + 6)] ?_ ?_ rfl ?_⟩
    · rw [decodeDescriptor_putFields (by rw [flags]; decide), flags, if_neg (by decide),
        Nat.mod_eq_of_lt (by omega), UInt32.ofNat_toNat]
    · intro offset outside
      rw [GdtMemory.put_other _ _ (kept offset outside)]
    · simp only [List.mem_cons, List.not_mem_nil, or_false, imp_self, implies_true]

/-- What a descriptor decodes to depends on its own bytes. -/
theorem decodeDescriptor_congr {first second : Nat → UInt8}
    (same : ∀ offset, target ≤ offset → offset < target + sizeofGdt → first offset = second offset) :
    decodeDescriptor first target = decodeDescriptor second target := by
  unfold sizeofGdt at same
  unfold decodeDescriptor
  rw [same target (by omega) (by omega), same (target + 1) (by omega) (by omega),
    same (target + 2) (by omega) (by omega), same (target + 3) (by omega) (by omega),
    same (target + 4) (by omega) (by omega), same (target + 5) (by omega) (by omega),
    same (target + 6) (by omega) (by omega), same (target + 7) (by omega) (by omega)]

/-- The writes of a run each went into a descriptor of the table. -/
def WritesWithin (count : Nat) (writes : List (Nat × Nat)) : Prop :=
  ∀ write ∈ writes, ∃ i < count, write.1 = sizeofGdt * i ∧ write.1 ≤ write.2 ∧
    write.2 < write.1 + sizeofGdt

/-- The loop keeps what is outside its descriptors. -/
theorem gdtStructuredToGdtLoop_encoded : ∀ (entries : List GdtStructured) (i : Nat)
    (memory : GdtMemory), (∀ entry ∈ entries, entry.Encodable) →
    ∃ final, (gdtStructuredToGdtLoop entries i).run memory = .ok ((), final) ∧
      (∀ j entry, entries[j]? = some entry →
        decodeDescriptor final.bytes (sizeofGdt * (i + j)) = entry) ∧
      (∀ offset, ¬ (sizeofGdt * i ≤ offset ∧ offset < sizeofGdt * (i + entries.length)) →
        final.bytes offset = memory.bytes offset) ∧
      ∃ added, final.writes = memory.writes ++ added ∧
        WritesWithin (i + entries.length) added := by
  intro entries
  induction entries with
  | nil =>
      intro i memory _
      exact ⟨memory, rfl, fun j entry present => absurd present (by simp), fun _ _ => rfl, [],
        (List.append_nil _).symm, fun write member => absurd member List.not_mem_nil⟩
  | cons entry entries ih =>
      intro i memory encodable
      obtain ⟨middle, run, encoded⟩ := encodeGdtEntry_encoded (encodable entry List.mem_cons_self)
        memory (sizeofGdt * i)
      obtain ⟨final, rest, decoded, kept, later, appended, within⟩ := ih (i + 1) middle
        fun other member => encodable other (List.mem_cons_of_mem _ member)
      obtain ⟨added, wrote, inside⟩ := encoded.writes
      refine ⟨final, ?_, ?_, ?_, added ++ later, ?_, ?_⟩
      · rw [gdtStructuredToGdtLoop, Exec.bind_of_ok run, rest]
      · intro j other present
        cases j with
        | zero =>
            cases present
            rw [Nat.add_zero, @decodeDescriptor_congr _ _ middle.bytes, encoded.decoded]
            intro offset _ below
            refine kept offset ?_
            unfold sizeofGdt at below ⊢
            omega
        | succ j =>
            rw [show i + (j + 1) = i + 1 + j by omega]
            exact decoded j other present
      · intro offset outside
        unfold sizeofGdt at *
        rw [List.length_cons] at outside
        rw [kept offset (by omega), encoded.kept offset (by unfold sizeofGdt; omega)]
      · rw [appended, wrote, List.append_assoc]
      · intro write member
        rw [List.length_cons]
        rcases List.mem_append.mp member with here | after
        · obtain ⟨own, lower, upper⟩ := inside write here
          exact ⟨i, by omega, own, by rw [own]; exact lower, by rw [own]; exact upper⟩
        · obtain ⟨j, below, there⟩ := within write after
          exact ⟨j, by omega, there⟩

end Encode

/-- **The table round trip.** Every descriptor decodes to its entry, and every write went into the
descriptor it was made for. -/
theorem gdtStructuredToGdt_decodes {structuredGdt : List GdtStructured}
    (encodable : ∀ entry ∈ structuredGdt, entry.Encodable) (bytes : Nat → UInt8) :
    ∃ final, (gdtStructuredToGdt structuredGdt).run { bytes := bytes } = .ok ((), final) ∧
      (∀ i entry, structuredGdt[i]? = some entry →
        decodeDescriptor final.bytes (sizeofGdt * i) = entry) ∧
      (∀ offset, sizeofGdt * structuredGdt.length ≤ offset →
        final.bytes offset = bytes offset) ∧
      WritesWithin structuredGdt.length final.writes := by
  obtain ⟨final, run, decoded, kept, added, wrote, within⟩ :=
    gdtStructuredToGdtLoop_encoded structuredGdt 0 { bytes := bytes } encodable
  rw [Nat.zero_add] at within kept
  refine ⟨final, run, fun i entry present => ?_, fun offset after => kept offset fun inside =>
    (not_lt.mpr after) inside.2, ?_⟩
  · have entry' := decoded i entry present
    rwa [Nat.zero_add] at entry'
  · rw [wrote]
    exact within

/-- The table of the kernel, with a granular limit and one that is not. -/
theorem gdtStructuredToGdt_decodes_kernel : ∃ final,
    (gdtStructuredToGdt [⟨0, 0, 0⟩, ⟨0, 0xffffffff, 0x9a⟩, ⟨0x12345678, 65536, 0xE9⟩]).run
        { bytes := fun _ => 0 } = .ok ((), final) ∧
      decodeDescriptor final.bytes 16 = ⟨0x12345678, 65536, 0xE9⟩ := by
  obtain ⟨final, run, decoded, _⟩ := @gdtStructuredToGdt_decodes
    [⟨0, 0, 0⟩, ⟨0, 0xffffffff, 0x9a⟩, ⟨0x12345678, 65536, 0xE9⟩]
    (by
      intro entry member
      simp only [List.mem_cons, List.not_mem_nil, or_false] at member
      rcases member with rfl | rfl | rfl <;> unfold GdtStructured.Encodable <;> decide)
    (fun _ => 0)
  exact ⟨final, run, decoded 2 _ rfl⟩

end Peachos
