import Peachos.Fs.DirectoryCalls
import Peachos.Loader.ElfSpec

/-! # Reads outside of a loaded image

A check of the header stops at the first condition that fails, so an image that is too short is
refused before a read outside of it, or such a read happens. `Decides` splits the images of a check
into those it accepts and those it refuses without one. `elf_validate_loaded` compares no offset
with the size of the file: `elf_load` stays inside if and only if the header and its table fit or
an earlier field refuses the image (`elfLoad_sound_iff`).
-/

namespace Peachos

open CInt

/-- The bytes of a read lie in the image. -/
def ElfImage.Covers (image : ElfImage) (read : Nat × Nat) : Prop :=
  u32 ((read.1 : Int) - image.base) + read.2 ≤ image.content.length

/-- A field of the image. -/
def ElfImage.field (image : ElfImage) (offset size : Nat) : Nat :=
  littleEndian ((image.content.drop offset).take size)

/-- The header or the program header table reaches over the end of the image. -/
def ElfImage.Malformed (image : ElfImage) : Prop :=
  image.content.length < sizeofElfHeader ∨ image.content.length ≤ image.field 28 4 ∨
    image.content.length < image.field 28 4 + sizeofElf32Phdr * image.field 44 2

/-- A byte of the image differs from the signature. -/
def ElfImage.WrongSignature (image : ElfImage) : Prop :=
  ¬ elfSignature <+: image.content ∧ ¬ image.content <+: elfSignature

/-- A field that the image has is refused. -/
def ElfImage.Refused (image : ElfImage) : Prop :=
  image.WrongSignature ∨
    (5 ≤ image.content.length ∧ image.field eiClass 1 ≠ elfClassNone ∧
      image.field eiClass 1 ≠ elfClass32) ∨
    (6 ≤ image.content.length ∧ image.field eiData 1 ≠ elfDataNone ∧
      image.field eiData 1 ≠ elfData2Lsb) ∨
    (32 ≤ image.content.length ∧ (image.field 28 4 = 0 ∨ image.field 16 2 ≠ etExec ∨
      image.field 24 4 < peachosProgramVirtualAddress))

/-- What the loader may do with an image: it reads nothing outside of it, and refuses it with a
negative code if the header or the table reaches over its end. -/
def ElfOutcome.Sound (outcome : ElfOutcome) : Prop :=
  match outcome.image with
  | none => outcome.reads = [] ∧ outcome.res < 0
  | some image => (∀ read ∈ outcome.reads, image.Covers read) ∧
      (image.Malformed → outcome.res < 0)

section View

variable {memory : Nat → UInt8} {image : ElfImage}

/-- A read of the header lies in the image if the field does. -/
theorem covers_header {offset size : Nat} (inHeader : offset + size ≤ sizeofElfHeader) :
    image.Covers (u32 (image.base + offset), size) ↔ offset + size ≤ image.content.length := by
  have place : u32 ((u32 (image.base + offset) : Int) - image.base) = offset := by
    unfold sizeofElfHeader u32 at *
    omega
  rw [ElfImage.Covers, place]

/-- The number at a field of the header that lies in the image. -/
theorem wordAt_elfView {offset size : Nat} (inHeader : offset + size ≤ sizeofElfHeader)
    (inside : offset + size ≤ image.content.length) :
    wordAt (elfView memory image) (image.base + offset) size = image.field offset size := by
  rw [wordAt, ElfImage.field]
  congr 1
  refine List.ext_getElem ?_ fun index before _ => ?_
  · rw [List.length_map, List.length_range, List.length_take, List.length_drop]
    omega
  rw [List.length_map, List.length_range] at before
  have place : u32 ((u32 ((image.base + offset : Nat) + index) : Int) - image.base) =
      offset + index := by
    unfold sizeofElfHeader u32 at *
    omega
  rw [List.getElem_map, List.getElem_range, List.getElem_take, List.getElem_drop, elfView, place,
    List.getD_eq_getElem _ _ (by omega)]

end View

/-- The reads of a check and its answer: it passes, and it refuses, on the bytes of the image
alone. -/
def Decides (memory : Nat → UInt8) (image : ElfImage) (program : ElfM Bool)
    (passes refuses : Prop) : Prop :=
  ∃ value added, Observes (elfView memory image) program value added ∧
    ((∀ read ∈ added, image.Covers read) ∧ value = true ↔ passes) ∧
    ((∀ read ∈ added, image.Covers read) ∧ value = false ↔ refuses)

section Decide

variable {memory : Nat → UInt8} {image : ElfImage} {passes refuses : Prop}

theorem Decides.congr {program : ElfM Bool} {passes' refuses' : Prop}
    (decides : Decides memory image program passes refuses) (pass : passes ↔ passes')
    (refuse : refuses ↔ refuses') : Decides memory image program passes' refuses' := by
  rwa [Decides, ← pass, ← refuse]

theorem Decides.pure (value : Bool) :
    Decides memory image (Pure.pure value) (value = true) (value = false) :=
  ⟨value, [], .pure value, and_iff_right nofun, and_iff_right nofun⟩

/-- A check that reads a field first. -/
theorem Decides.read {offset size : Nat} {next : Nat → ElfM Bool} {passes refuses : Nat → Prop}
    (inHeader : offset + size ≤ sizeofElfHeader)
    (rest : ∀ value, Decides memory image (next value) (passes value) (refuses value)) :
    Decides memory image (readHeader image.base offset size >>= next)
      (offset + size ≤ image.content.length ∧ passes (image.field offset size))
      (offset + size ≤ image.content.length ∧ refuses (image.field offset size)) := by
  obtain ⟨value, added, observed, pass, refuse⟩ :=
    rest (wordAt (elfView memory image) (image.base + offset) size)
  refine ⟨value, _, (readHeader_observes _ _ _).bind observed, ?_, ?_⟩
  all_goals
    rw [List.singleton_append, List.forall_mem_cons, covers_header inHeader, and_assoc]
    refine and_congr_right fun inside => ?_
    rw [← @wordAt_elfView memory _ _ _ inHeader inside]
  · exact pass
  · exact refuse

/-- The second check is made if the first one passes. -/
theorem Decides.elfAnd {first second : ElfM Bool} {passes' refuses' : Prop}
    (before : Decides memory image first passes refuses)
    (after : Decides memory image second passes' refuses') :
    Decides memory image (Peachos.elfAnd first second) (passes ∧ passes')
      (refuses ∨ passes ∧ refuses') := by
  obtain ⟨value, added, observed, pass, refuse⟩ := before
  obtain ⟨value', added', observed', pass', refuse'⟩ := after
  cases value with
  | false =>
      refine ⟨false, added ++ [], observed.bind (.pure false), ?_, ?_⟩
      · rw [← pass]
        simp only [Bool.false_eq_true, and_false, false_and]
      · rw [← pass, ← refuse, List.append_nil]
        simp only [Bool.false_eq_true, and_false, false_and, or_false]
  | true =>
      refine ⟨value', added ++ added', observed.bind observed', ?_, ?_⟩
      · rw [← pass, ← pass', List.forall_mem_append]
        simp only [and_true, and_assoc]
      · rw [← pass, ← refuse, ← refuse', List.forall_mem_append]
        simp only [Bool.true_eq_false, and_true, and_false, false_or, and_assoc]

/-- The comparison with the signature from a byte of the image on. -/
theorem elfSignatureLoop_decides : ∀ (signature : List UInt8) (i : Nat),
    i + signature.length ≤ sizeofElfHeader →
    Decides memory image (elfSignatureLoop image.base signature i)
      (signature <+: image.content.drop i)
      (¬ signature <+: image.content.drop i ∧ ¬ image.content.drop i <+: signature) := by
  intro signature
  induction signature with
  | nil =>
      intro i _
      refine (Decides.pure true).congr ?_ ?_
      · simp only [List.nil_prefix]
      · simp only [Bool.true_eq_false, List.nil_prefix, not_true_eq_false, false_and]
  | cons byte signature ih =>
      intro i inHeader
      rw [List.length_cons] at inHeader
      have step := @Decides.read memory image i 1
        (fun c => if c ≠ byte.toNat then Pure.pure false else
          elfSignatureLoop image.base signature (i + 1))
        (fun c => c = byte.toNat ∧ signature <+: image.content.drop (i + 1))
        (fun c => c ≠ byte.toNat ∨ (¬ signature <+: image.content.drop (i + 1) ∧
          ¬ image.content.drop (i + 1) <+: signature)) (by omega) fun c => by
          by_cases same : c = byte.toNat
          · rw [if_neg (not_not.mpr same)]
            refine (ih (i + 1) (by omega)).congr ?_ ?_
            · rw [and_iff_right same]
            · rw [or_iff_right (not_not.mpr same)]
          · rw [if_pos same]
            refine (Decides.pure false).congr ?_ ?_
            · simp only [Bool.false_eq_true, same, false_and]
            · simp only [true_iff]
              exact .inl same
      by_cases inside : i < image.content.length
      · rw [List.drop_eq_getElem_cons inside, List.cons_prefix_cons, List.cons_prefix_cons]
        have field : image.field i 1 = (image.content[i]).toNat := by
          rw [ElfImage.field, List.drop_eq_getElem_cons inside]
          rfl
        have toNat : ((image.content[i]).toNat = byte.toNat) = (image.content[i] = byte) :=
          propext UInt8.toNat_inj
        simp only [field, ne_eq, toNat] at step
        have bound : i + 1 ≤ image.content.length := inside
        refine step.congr ?_ ?_
        · rw [and_iff_right bound, eq_comm]
        · rw [and_iff_right bound, eq_comm]
          tauto
      · rw [List.drop_of_length_le (not_lt.mp inside)]
        refine step.congr ?_ ?_
        · simp only [List.prefix_nil, reduceCtorEq, iff_false]
          omega
        · simp only [List.nil_prefix, not_true_eq_false, and_false, iff_false]
          omega

theorem elfValidSignature_decides : Decides memory image (elfValidSignature image.base)
    (elfSignature <+: image.content) image.WrongSignature :=
  elfSignatureLoop_decides elfSignature 0 (by decide)

theorem elfIdentIs_decides {index first second : Nat} (inHeader : index + 1 ≤ sizeofElfHeader) :
    Decides memory image (elfIdentIs image.base index first second)
      (index + 1 ≤ image.content.length ∧
        (image.field index 1 = first ∨ image.field index 1 = second))
      (index + 1 ≤ image.content.length ∧ image.field index 1 ≠ first ∧
        image.field index 1 ≠ second) := by
  have again := @Decides.read memory image _ _ (fun value =>
    Pure.pure (value == second)) _ _ inHeader fun value => .pure _
  refine (@Decides.read memory image index 1 _ (fun value => value = first ∨
    (index + 1 ≤ image.content.length ∧ image.field index 1 = second))
    (fun value => value ≠ first ∧
      (index + 1 ≤ image.content.length ∧ image.field index 1 ≠ second))
    inHeader fun value => ?_).congr ?_ ?_
  · by_cases same : value = first
    · rw [if_pos same]
      refine (Decides.pure true).congr ?_ ?_
      · simp only [same, true_or]
      · simp only [same, Bool.true_eq_false, ne_eq, not_true_eq_false, false_and]
    · rw [if_neg same]
      refine again.congr ?_ ?_
      · simp only [same, false_or, beq_iff_eq]
      · simp only [same, ne_eq, not_false_eq_true, true_and, beq_eq_false_iff_ne]
  · tauto
  · tauto

theorem elfHasProgramHeader_decides : Decides memory image (elfHasProgramHeader image.base)
    (32 ≤ image.content.length ∧ image.field 28 4 ≠ 0)
    (32 ≤ image.content.length ∧ image.field 28 4 = 0) := by
  refine (Decides.read (by decide) fun value => .pure (value != 0)).congr ?_ ?_
  · simp only [bne_iff_ne]
  · simp only [bne_eq_false_iff_eq]

theorem elfIsExecutable_decides : Decides memory image (elfIsExecutable image.base)
    (28 ≤ image.content.length ∧ image.field 16 2 = etExec ∧
      peachosProgramVirtualAddress ≤ image.field 24 4)
    (18 ≤ image.content.length ∧ (image.field 16 2 ≠ etExec ∨
      (28 ≤ image.content.length ∧ image.field 24 4 < peachosProgramVirtualAddress))) := by
  have entry := @Decides.read memory image 24 4 _ _ _
    (by decide) fun value => .pure (decide (peachosProgramVirtualAddress ≤ value))
  refine (@Decides.read memory image 16 2 _ (fun value => value = etExec ∧
    (28 ≤ image.content.length ∧ peachosProgramVirtualAddress ≤ image.field 24 4))
    (fun value => value ≠ etExec ∨
      (28 ≤ image.content.length ∧ image.field 24 4 < peachosProgramVirtualAddress))
    (by decide) fun value => ?_).congr ?_ ?_
  · by_cases same : value = etExec
    · rw [if_pos same]
      refine entry.congr ?_ ?_
      · simp only [same, true_and, decide_eq_true_eq]
      · simp only [same, ne_eq, not_true_eq_false, false_or, decide_eq_false_iff_not, not_le]
    · rw [if_neg same]
      refine (Decides.pure false).congr ?_ ?_
      · simp only [same, Bool.false_eq_true, false_and]
      · simp only [same, ne_eq, not_false_eq_true, true_or]
  · constructor
    · rintro ⟨_, type, inside, high⟩
      exact ⟨inside, type, high⟩
    · rintro ⟨inside, type, high⟩
      exact ⟨by omega, type, inside, high⟩
  · rfl

/-- The conditions of `elf_validate_loaded`. -/
def ElfImage.Accepted (image : ElfImage) : Prop :=
  elfSignature <+: image.content ∧
    (5 ≤ image.content.length ∧
      (image.field eiClass 1 = elfClassNone ∨ image.field eiClass 1 = elfClass32)) ∧
    (6 ≤ image.content.length ∧
      (image.field eiData 1 = elfDataNone ∨ image.field eiData 1 = elfData2Lsb)) ∧
    (32 ≤ image.content.length ∧ image.field 28 4 ≠ 0) ∧
    28 ≤ image.content.length ∧ image.field 16 2 = etExec ∧
      peachosProgramVirtualAddress ≤ image.field 24 4

/-- An image with a whole header is decided. -/
theorem ElfImage.accepted_or_refused (whole : sizeofElfHeader ≤ image.content.length) :
    image.Accepted ∨ image.Refused := by
  unfold sizeofElfHeader at whole
  by_cases signed : elfSignature <+: image.content
  · unfold ElfImage.Accepted ElfImage.Refused
    simp only [signed, true_and]
    omega
  · refine .inr (.inl ⟨signed, fun before => ?_⟩)
    have short : image.content.length ≤ 4 := before.length_le
    omega

theorem elfValidateLoaded_decides : ∃ valid added,
    Observes (elfView memory image) (elfValidateLoaded image.base)
      (if valid then peachosAllOk else -einformat) added ∧
    ((∀ read ∈ added, image.Covers read) ∧ valid = true ↔ image.Accepted) ∧
    ((∀ read ∈ added, image.Covers read) ∧ valid = false ↔ image.Refused) := by
  obtain ⟨valid, added, observed, pass, refuse⟩ :=
    (@elfValidSignature_decides memory image).elfAnd
      ((@elfIdentIs_decides _ _ eiClass _ _ (by decide)).elfAnd
        ((@elfIdentIs_decides _ _ eiData _ _ (by decide)).elfAnd
          (elfHasProgramHeader_decides.elfAnd elfIsExecutable_decides)))
  refine ⟨valid, added ++ [], observed.bind (.pure _), ?_, ?_⟩
  · rw [List.append_nil, pass]
    rfl
  rw [List.append_nil, refuse]
  unfold ElfImage.Refused
  constructor
  · rintro (wrong | ⟨_, other | ⟨_, other | ⟨_, ⟨inside, none⟩ | ⟨⟨inside, _⟩, _, other⟩⟩⟩⟩)
    · exact .inl wrong
    · exact .inr (.inl other)
    · exact .inr (.inr (.inl other))
    · exact .inr (.inr (.inr ⟨inside, .inl none⟩))
    · exact .inr (.inr (.inr ⟨inside, .inr (other.imp_right And.right)⟩))
  · intro refused
    by_cases signed : elfSignature <+: image.content
    · have right : ¬ image.WrongSignature := fun wrong => wrong.1 signed
      unfold eiClass eiData elfClassNone elfClass32 elfDataNone elfData2Lsb at *
      simp only [signed, right, true_and, false_or] at refused ⊢
      omega
    · refine .inl (refused.elim id fun later => ⟨signed, fun before => ?_⟩)
      have short : image.content.length ≤ 4 := before.length_le
      omega

/-- The reads of the program header table of an image that is not malformed lie in it. -/
theorem ElfImage.covers_table (formed : ¬ image.Malformed) (present : image.field 28 4 ≠ 0)
    {read : Nat × Nat} (table : TableRead (elfView memory image) image.base read) :
    image.Covers read := by
  have whole : sizeofElfHeader ≤ image.content.length := not_lt.mp fun short => formed (.inl short)
  have fits : image.field 28 4 + sizeofElf32Phdr * image.field 44 2 ≤ image.content.length :=
    not_lt.mp fun short => formed (.inr (.inr short))
  have phoff := @wordAt_elfView memory image 28 4
    (by decide) (le_trans (by decide) whole)
  have phnum := @wordAt_elfView memory image 44 2
    (by decide) (le_trans (by decide) whole)
  rcases table with rfl | rfl | ⟨index, inside, rfl⟩
  · exact (covers_header (by decide)).mpr (le_trans (by decide) whole)
  · exact (covers_header (by decide)).mpr (le_trans (by decide) whole)
  · rw [phdrCount, phnum] at inside
    rw [ElfImage.Covers, phdrAddress, pheaderAddress, phoff, if_neg present]
    unfold sizeofElf32Phdr u32 at *
    omega

/-- What the loader does with an image: it makes the checks, and reads the table if they pass. -/
theorem elfProcessLoaded_decides : ∃ res machine checked table,
    elfProcessLoaded.run { memory := elfView memory image, file := { elfMemory := image.base } } =
      .ok (res, machine) ∧
    machine.reads = checked ++ table ∧
    ((∀ read ∈ checked, image.Covers read) ∧ 0 ≤ res ↔ image.Accepted) ∧
    ((∀ read ∈ checked, image.Covers read) ∧ res < 0 ↔ image.Refused) ∧
    (res < 0 → table = []) ∧
    ∀ read ∈ table, TableRead (elfView memory image) image.base read := by
  obtain ⟨valid, checked, observed, pass, refuse⟩ :=
    @elfValidateLoaded_decides memory image
  have validated := observed { elfMemory := image.base } []
  rw [List.nil_append] at validated
  cases valid with
  | false =>
      have run : elfProcessLoaded.run { memory := elfView memory image, file := { elfMemory :=
          image.base } } = .ok (-einformat, ⟨elfView memory image, { elfMemory := image.base },
            checked⟩) := by
        rw [elfProcessLoaded, Exec.bind_of_ok (Exec.run_read _ _), Exec.bind_of_ok validated]
        rfl
      refine ⟨_, _, checked, [], run, (List.append_nil _).symm, ?_, ?_, fun _ => rfl, nofun⟩
      · rw [← pass]
        exact and_congr_right fun _ => by decide
      · rw [← refuse]
        exact and_congr_right fun _ => by decide
  | true =>
      obtain ⟨table, processed, allowed⟩ := elfProcessPheaders_run (elfView memory image)
        { elfMemory := image.base } checked
      have run : elfProcessLoaded.run { memory := elfView memory image, file := { elfMemory :=
          image.base } } = .ok (0, ⟨elfView memory image,
            (elfProgramHeaders (elfView memory image) image.base).foldl ElfFile.process
              { elfMemory := image.base }, checked ++ table⟩) := by
        rw [elfProcessLoaded, Exec.bind_of_ok (Exec.run_read _ _), Exec.bind_of_ok validated]
        exact processed
      refine ⟨_, _, checked, table, run, rfl, ?_, ?_, fun refused => absurd refused (by decide),
        allowed⟩
      · rw [← pass]
        exact and_congr_right fun _ => by decide
      · rw [← refuse]
        exact and_congr_right fun _ => by decide

/-- **The image.** The loader is sound on an image if and only if it is not malformed or refused by
a field that it has. -/
theorem elfLoadImage_sound_iff (loaded : ElfLoaded) (kernel : Kernel) : ∃ outcome,
    (elfLoadImage memory loaded).run kernel = .ok (outcome, kernel) ∧
      (outcome.Sound ↔ ¬ loaded.image.Malformed ∨ loaded.image.Refused) := by
  obtain ⟨fd, elfFile, image⟩ := loaded
  obtain ⟨res, machine, checked, table, run, reads, pass, refuse, stopped, allowed⟩ :=
    @elfProcessLoaded_decides memory image
  refine ⟨⟨res, fd, elfFile, machine.file, some image, machine.reads⟩, ?_, ?_⟩
  · rw [elfLoadImage, run]
    rfl
  unfold ElfOutcome.Sound
  dsimp only
  rw [reads]
  constructor
  · rintro ⟨covered, negative⟩
    refine or_iff_not_imp_left.mpr fun malformed => refuse.mp ⟨fun read member => ?_,
      negative (not_not.mp malformed)⟩
    exact covered read (List.mem_append_left _ member)
  · rintro (formed | refused)
    · rcases ElfImage.accepted_or_refused (not_lt.mp fun short => formed (.inl short)) with
        accepted | refused
      · have covered := (pass.mpr accepted).1
        have present := accepted.2.2.2.1.2
        refine ⟨fun read member => ?_, fun malformed => absurd malformed formed⟩
        rcases List.mem_append.mp member with check | header
        · exact covered read check
        · exact ElfImage.covers_table formed present (allowed read header)
      · obtain ⟨covered, negative⟩ := refuse.mpr refused
        rw [stopped negative, List.append_nil]
        exact ⟨covered, fun _ => negative⟩
    · obtain ⟨covered, negative⟩ := refuse.mpr refused
      rw [stopped negative, List.append_nil]
      exact ⟨covered, fun _ => negative⟩

end Decide

section Load

variable {read : StreamRead} {memory : Nat → UInt8} {filename : List UInt8} {kernel : Kernel}

/-- An image that is not read is not processed. -/
theorem elfReadImage_refused {outcome : ElfOutcome} {final : Kernel}
    (run : (elfReadImage read filename).run kernel = .ok (.error outcome, final)) :
    outcome.Sound := by
  obtain ⟨elfFile, first, _, run⟩ := Exec.bind_eq_ok.mp run
  obtain ⟨fd, second, _, run⟩ := Exec.bind_eq_ok.mp run
  by_cases refused : fd ≤ 0
  · rw [if_pos refused, Exec.run_pure] at run
    cases run
    have negative : -eio < 0 := by decide
    exact ⟨rfl, negative⟩
  rw [if_neg refused] at run
  obtain ⟨⟨res, stat⟩, third, _, run⟩ := Exec.bind_eq_ok.mp run
  dsimp only at run
  by_cases negative : res < 0
  · rw [if_pos negative, Exec.run_pure] at run
    cases run
    exact ⟨rfl, negative⟩
  rw [if_neg negative] at run
  obtain ⟨elfMemory, fourth, _, run⟩ := Exec.bind_eq_ok.mp run
  obtain ⟨_, fifth, _, run⟩ := Exec.bind_eq_ok.mp run
  obtain ⟨res, sixth, _, run⟩ := Exec.bind_eq_ok.mp run
  by_cases negative : res < 0
  · rw [if_pos negative, Exec.run_pure] at run
    cases run
    exact ⟨rfl, negative⟩
  rw [if_neg negative] at run
  obtain ⟨content, seventh, _, run⟩ := Exec.bind_eq_ok.mp run
  cases run

/-- **Reads of the loader.** Every outcome of `elf_load` is sound if and only if each image that it
puts into memory has its header and its table inside, or a field that it has is refused. -/
theorem elfLoad_sound_iff (read : StreamRead) (memory : Nat → UInt8) (filename : List UInt8)
    (kernel : Kernel) :
    (∀ outcome final, (elfLoadOutcome read memory filename).run kernel = .ok (outcome, final) →
      outcome.Sound) ↔
    ∀ loaded final, (elfReadImage read filename).run kernel = .ok (.ok loaded, final) →
      ¬ loaded.image.Malformed ∨ loaded.image.Refused := by
  constructor
  · intro sound loaded final run
    obtain ⟨outcome, processed, iff⟩ := @elfLoadImage_sound_iff memory loaded final
    refine iff.mp (sound outcome final ?_)
    rw [elfLoadOutcome, Exec.bind_of_ok run]
    exact processed
  · intro bounded outcome final run
    obtain ⟨stage, middle, first, rest⟩ := Exec.bind_eq_ok.mp run
    cases stage with
    | error refused =>
        rw [Exec.run_pure] at rest
        cases rest
        exact elfReadImage_refused first
    | ok loaded =>
        obtain ⟨found, processed, iff⟩ := @elfLoadImage_sound_iff memory loaded middle
        have condition := bounded loaded middle first
        rw [processed] at rest
        cases rest
        exact iff.mpr condition

end Load

/-- The kernel after `kheap_init` with a small heap, and a disk with the file `A`: an ELF header of
52 bytes with one program header at offset `0x1000`. -/
def elfKernel : Kernel :=
  { freshKernel smallHeapRegion with
    drive := imageOf [(13, 1), (14, 1), (16, 1), (17, 2), (22, 1), (38, 0x29), (1024, 65),
      (1050, 2), (1052, 52), (1536, 0x7f), (1537, 69), (1538, 76), (1539, 70), (1552, 2),
      (1562, 0x40), (1565, 0x10), (1580, 1)] }

/-- Mounting that disk and loading `0:/A`. -/
def loadElf : K (Int × Option ElfImage × List (Nat × Nat)) := do
  let _ ← fat16Resolve diskstreamerRead
  let outcome ← elfLoadOutcome diskstreamerRead (fun _ => 0) [48, 58, 47, 65]
  pure (outcome.res, outcome.image, outcome.reads)

/-- The image of that file. -/
def elfImage : ElfImage where
  base := 0x0200D000
  content := elfSignature ++ List.replicate 12 0 ++ [2] ++ List.replicate 9 0 ++ [0x40, 0, 0, 0x10] ++
    List.replicate 14 0 ++ [1] ++ List.replicate 7 0

theorem loadElf_run : (loadElf.run elfKernel).map Prod.fst = .ok (0, some elfImage,
    (List.range 6).map (fun index => (0x0200D000 + index, 1)) ++ [(0x0200D01C, 4),
      (0x0200D010, 2), (0x0200D018, 4), (0x0200D02C, 2), (0x0200D01C, 4), (0x0200D01C, 4),
      (0x0200E000, 32), (0x0200D02C, 2)]) := by
  decide +kernel

/-- The file is accepted, and its program header is read 4044 bytes after the end of the image. -/
theorem elfLoad_outOfBounds : ∃ start outcome final,
    (elfLoadOutcome diskstreamerRead (fun _ => 0) [48, 58, 47, 65]).run start =
        .ok (outcome, final) ∧
      outcome.image = some elfImage ∧ elfImage.Malformed ∧ outcome.res = 0 ∧
      (0x0200E000, 32) ∈ outcome.reads ∧ ¬ elfImage.Covers (0x0200E000, 32) ∧
      ¬ outcome.Sound := by
  obtain ⟨_, start, _, evaluated⟩ := result_of_bind loadElf_run
  obtain ⟨outcome, final, run, evaluated⟩ := result_of_bind evaluated
  obtain ⟨accepted, image, reads⟩ : outcome.res = 0 ∧ outcome.image = some elfImage ∧ _ := by
    simpa only [Exec.run_pure, Except.map, Except.ok.injEq, Prod.mk.injEq] using evaluated
  have malformed : elfImage.Malformed := .inr (.inl (by decide))
  refine ⟨start, outcome, final, run, image, malformed, accepted, ?_, by
    unfold ElfImage.Covers
    decide, ?_⟩
  · rw [reads]
    simp only [List.mem_append, List.mem_cons, true_or, or_true]
  · rw [ElfOutcome.Sound, image]
    intro sound
    have negative := sound.2 malformed
    rw [accepted] at negative
    exact absurd negative (lt_irrefl 0)

end Peachos
