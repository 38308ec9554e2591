import Peachos.Foundation.Split
import Peachos.Fs.Filename

/-! # Short names

A directory entry keeps a name of at most eight characters and an extension of at most three in
fields padded with spaces. Printing and comparing up to case lose nothing of the fields but the case of
their letters: two entries answer to one component of a path if and only if their fields are equal
up to case (`shortNames_match`).
-/

namespace Peachos

open Padding Split Window

/-- A character of the name or of the extension. -/
def NameCharacter (character : UInt8) : Prop := Printed character ∧ character ≠ 46

instance (character : UInt8) : Decidable (NameCharacter character) :=
  inferInstanceAs (Decidable (_ ∧ _))

/-- A name with its extension. -/
structure ShortName where
  base : List UInt8
  ext : List UInt8
  baseNotEmpty : base ≠ []
  baseFits : base.length ≤ sizeofFilename
  extFits : ext.length ≤ sizeofExt
  baseCharacters : ∀ character ∈ base, NameCharacter character
  extCharacters : ∀ character ∈ ext, NameCharacter character

/-- The eleven bytes of the fields. -/
def ShortName.fields (name : ShortName) : List UInt8 :=
  padded 0x20 sizeofFilename name.base ++ padded 0x20 sizeofExt name.ext

/-- The name as a path has it. -/
def ShortName.text (name : ShortName) : List UInt8 :=
  if name.ext = [] then name.base else name.base ++ 46 :: name.ext

/-- A directory entry in memory has the name in its fields. -/
def ShortName.StoredIn (name : ShortName) (entry : Nat → UInt8) : Prop :=
  window entry 0 (sizeofFilename + sizeofExt) = name.fields

instance (name : ShortName) (entry : Nat → UInt8) : Decidable (name.StoredIn entry) :=
  inferInstanceAs (Decidable (_ = _))

/-- Two texts are equal up to the case of their letters. -/
def SameUpToCase (first second : List UInt8) : Prop := first.map toLower = second.map toLower

instance (first second : List UInt8) : Decidable (SameUpToCase first second) :=
  inferInstanceAs (Decidable (_ = _))

/-- A C string: no character of it is the terminator. -/
def Terminated (text : List UInt8) : Prop := 0 ∉ text

section Lower

variable {character : UInt8} {text other : List UInt8}

theorem printed_toLower : Printed (toLower character) ↔ Printed character := by
  unfold Printed
  rw [ne_eq, ne_eq, toLower_eq_iff (.inl (by decide)), toLower_eq_iff (.inl (by decide))]

theorem mem_map_toLower_iff {item : UInt8} (noLetter : item < 65 ∨ 122 < item) :
    item ∈ text.map toLower ↔ item ∈ text := by
  simp only [List.mem_map, toLower_eq_iff noLetter, exists_eq_right]

/-- The comparison of two C strings of which the first fits is a comparison up to case. -/
theorem istrncmp_eq_zero_iff {n : Nat} (clean : Terminated text) (clean' : Terminated other)
    (fits : text.length < n) : istrncmp text other n = 0 ↔ SameUpToCase other text := by
  have apart {u1 u2 : UInt8} (different : u1 ≠ u2) : (u1.toNat : Int) - u2.toNat ≠ 0 := by
    intro zero
    exact different (UInt8.toNat_inj.mp (by omega))
  have zero {u : UInt8} : toLower u = 0 ↔ u = 0 := toLower_eq_iff (.inl (by decide))
  induction n generalizing text other with
  | zero => omega
  | succ n ih =>
      rw [istrncmp]
      cases text with
      | nil =>
          cases other with
          | nil => exact iff_of_true rfl rfl
          | cons second other =>
              have some : second ≠ 0 := fun none => clean' (none ▸ List.mem_cons_self)
              have lower : toLower second ≠ 0 := fun none => some (zero.mp none)
              rw [if_pos ⟨some.symm, lower.symm⟩]
              exact iff_of_false (apart some.symm) (List.cons_ne_nil _ _)
      | cons first text =>
          have some : first ≠ 0 := fun none => clean (none ▸ List.mem_cons_self)
          cases other with
          | nil =>
              have lower : toLower first ≠ 0 := fun none => some (zero.mp none)
              rw [if_pos ⟨some, lower⟩]
              exact iff_of_false (apart some) (List.cons_ne_nil _ _).symm
          | cons second other =>
              rw [SameUpToCase, List.map_cons, List.map_cons, List.cons.injEq, List.tail_cons,
                List.tail_cons, List.headD_cons, List.headD_cons]
              by_cases same : toLower first = toLower second
              · rw [if_neg fun different => different.2 same, if_neg some]
                have rest : istrncmp text other n = 0 ↔ SameUpToCase other text :=
                  ih (fun member => clean (List.mem_cons_of_mem _ member))
                    (fun member => clean' (List.mem_cons_of_mem _ member))
                    (Nat.lt_of_succ_lt_succ fits)
                rw [rest]
                exact (and_iff_right same.symm).symm
              · have different : first ≠ second := fun equal => same (congrArg toLower equal)
                rw [if_pos ⟨different, same⟩]
                exact iff_of_false (apart different) fun equal => same equal.1.symm

end Lower

section Fields

variable (name : ShortName) {entry : Nat → UInt8}

theorem NameCharacter.printed {character : UInt8} (inName : NameCharacter character) :
    decide (Printed character) = true :=
  decide_eq_true inName.1

/-- The printed part of a padded field is the text in it. -/
theorem printedText_padded {address size : Nat} {text : List UInt8}
    (field : window entry address size = padded 0x20 size text)
    (characters : ∀ character ∈ text, NameCharacter character) :
    printedText entry address size = text := by
  rw [printedText, field]
  exact takeWhile_padded (fun character inside => (characters character inside).printed) (by decide)

/-- **The name of a stored entry.** -/
theorem ShortName.itemName_eq (stored : name.StoredIn entry) :
    itemName (window entry 0 sizeofFatDirectoryItem) = name.text := by
  have split := window_append entry 0 sizeofFilename sizeofExt
  rw [Nat.zero_add, show window entry 0 (sizeofFilename + sizeofExt) = name.fields from stored] at split
  obtain ⟨base, ext⟩ := List.append_inj split (by rw [length_window, length_padded name.baseFits])
  rw [itemName_window, printedText_padded base name.baseCharacters,
    printedText_padded ext name.extCharacters, ShortName.text]
  have first : entry 8 = (padded 0x20 sizeofExt name.ext).headD 0 := by
    rw [← ext]
    rfl
  by_cases none : name.ext = []
  · have blank : entry 8 = 0x20 := by
      rw [first, none]
      rfl
    rw [if_pos none, if_neg (fun printed => printed.2 blank), List.append_nil]
  · obtain ⟨character, rest, named⟩ := List.exists_cons_of_ne_nil none
    have head : entry 8 = character := by
      rw [first, named]
      rfl
    have inName := name.extCharacters character (named ▸ List.mem_cons_self)
    rw [if_neg none, head, if_pos inName.1]

theorem ShortName.terminated_text : Terminated name.text := by
  unfold ShortName.text
  intro member
  split at member
  · exact (name.baseCharacters 0 member).1.1 rfl
  · rcases List.mem_append.mp member with base | rest
    · exact (name.baseCharacters 0 base).1.1 rfl
    · rcases List.mem_cons.mp rest with dot | ext
      · exact absurd dot (by decide)
      · exact (name.extCharacters 0 ext).1.1 rfl

theorem ShortName.length_text_le : name.text.length ≤ 12 := by
  have base : name.base.length ≤ 8 := name.baseFits
  have ext : name.ext.length ≤ 3 := name.extFits
  unfold ShortName.text
  split
  · omega
  · rw [List.length_append, List.length_cons]
    omega

variable (name' : ShortName)

/-- The parts of a name in lower case are printed. -/
theorem printed_lower {part : List UInt8} (characters : ∀ character ∈ part, NameCharacter character) :
    ∀ lower ∈ part.map toLower, decide (Printed lower) = true := by
  intro lower member
  obtain ⟨character, inside, rfl⟩ := List.mem_map.mp member
  exact decide_eq_true (printed_toLower.mpr (characters character inside).1)

/-- The fields determine both parts up to case. -/
theorem ShortName.fields_same_iff : SameUpToCase name.fields name'.fields ↔
    SameUpToCase name.base name'.base ∧ SameUpToCase name.ext name'.ext := by
  have blank : toLower 0x20 = 0x20 := by decide
  have lengths : (padded 0x20 sizeofFilename (name.base.map toLower)).length =
      (padded 0x20 sizeofFilename (name'.base.map toLower)).length := by
    rw [length_padded (by rw [List.length_map]; exact name.baseFits),
      length_padded (by rw [List.length_map]; exact name'.baseFits)]
  have stop : decide (Printed 0x20) = false := by decide
  have bases := @padded_inj _ _ sizeofFilename _ _ _ (printed_lower name.baseCharacters)
    (printed_lower name'.baseCharacters) stop
  have exts := @padded_inj _ _ sizeofExt _ _ _ (printed_lower name.extCharacters)
    (printed_lower name'.extCharacters) stop
  unfold SameUpToCase ShortName.fields
  rw [List.map_append, List.map_append, map_padded, map_padded, map_padded, map_padded, blank,
    ← bases, ← exts]
  exact ⟨fun same => List.append_inj same lengths, fun ⟨base, ext⟩ => by rw [base, ext]⟩

/-- So does the printed text. -/
theorem ShortName.text_same_iff : SameUpToCase name.text name'.text ↔
    SameUpToCase name.base name'.base ∧ SameUpToCase name.ext name'.ext := by
  have dotless (name : ShortName) : 46 ∉ name.base.map toLower := fun member =>
    (name.baseCharacters 46 ((mem_map_toLower_iff (by decide)).mp member)).2 rfl
  have lower (name : ShortName) : name.text.map toLower = name.base.map toLower ++
      if name.ext = [] then [] else 46 :: name.ext.map toLower := by
    unfold ShortName.text
    split
    · rw [List.append_nil]
    · rw [List.map_append, List.map_cons]
      rfl
  have base (name : ShortName) : first 46 (name.text.map toLower) = name.base.map toLower := by
    rw [lower]
    split
    · rw [List.append_nil, first_of_not_mem (dotless name)]
    · exact first_append (dotless name)
  unfold SameUpToCase
  constructor
  · intro same
    have bases : name.base.map toLower = name'.base.map toLower := by
      rw [← base name, same, base name']
    rw [lower, lower, bases, List.append_right_inj] at same
    refine ⟨bases, ?_⟩
    by_cases none : name.ext = []
    · by_cases none' : name'.ext = []
      · rw [none, none']
      · rw [if_pos none, if_neg none'] at same
        exact absurd same.symm (List.cons_ne_nil _ _)
    · by_cases none' : name'.ext = []
      · rw [if_neg none, if_pos none'] at same
        exact absurd same (List.cons_ne_nil _ _)
      · rw [if_neg none, if_neg none'] at same
        exact List.tail_eq_of_cons_eq same
  · rintro ⟨bases, exts⟩
    have empty : name.ext = [] ↔ name'.ext = [] := by
      rw [← @List.map_eq_nil_iff _ _ toLower, exts, List.map_eq_nil_iff]
    simp only [lower, bases, exts, empty]

end Fields

/-- The lookup compares an entry in memory with a component as equal. -/
def NameM.Matches (entry : Nat → UInt8) (component : List UInt8) : Prop :=
  ∃ out rest final, out.length = peachosMaxPath ∧
    NameM.matchName.run { entry := entry, out := out, name := component ++ 0 :: rest } =
      .ok (0, final)

/-- It is the comparison of the lookup of the file system. -/
theorem matches_iff_named {entry : Nat → UInt8} {component : List UInt8} :
    NameM.Matches entry component ↔ Named (window entry 0 sizeofFatDirectoryItem) component := by
  unfold Named
  constructor
  · rintro ⟨out, rest, final, buffer, run⟩
    obtain ⟨other, run'⟩ := @NameM.matchName_run entry _ component rest [] buffer
    exact (congrArg Prod.fst (Except.ok.inj (run.symm.trans run'))).symm
  · intro named
    obtain ⟨final, run⟩ := @NameM.matchName_run entry (List.replicate peachosMaxPath 0) component [] []
      (List.length_replicate ..)
    rw [named] at run
    exact ⟨_, _, final, List.length_replicate .., run⟩

section Match

variable {name name' : ShortName} {entry entry' : Nat → UInt8}

theorem ShortName.compared_iff {component : List UInt8} (clean : Terminated component) :
    istrncmp name.text component peachosMaxPath = 0 ↔ SameUpToCase component name.text := by
  have short := name.length_text_le
  exact istrncmp_eq_zero_iff name.terminated_text clean (by unfold peachosMaxPath; omega)

theorem ShortName.matches_iff (stored : name.StoredIn entry) {component : List UInt8}
    (clean : Terminated component) :
    NameM.Matches entry component ↔ SameUpToCase component name.text := by
  rw [matches_iff_named, Named, name.itemName_eq stored]
  exact name.compared_iff clean

/-- **Short names.** The name of an entry is written into the buffer, terminated, from the eleven bytes
of its fields; the lookup compares it with every C string up to case; and two entries answer to one
component if and only if their fields are equal up to case. -/
theorem shortNames_match (stored : name.StoredIn entry) (stored' : name'.StoredIn entry') :
    (∀ out component, out.length = peachosMaxPath → ∃ reads,
      (NameM.fat16GetFullRelativeFilename peachosMaxPath).run
          { entry := entry, out := out, name := component } =
        .ok ((), ⟨entry, padded 0 peachosMaxPath name.text, component, reads⟩) ∧
      ∀ read ∈ reads, read < sizeofFilename + sizeofExt) ∧
    (∀ out component rest, out.length = peachosMaxPath → Terminated component →
      ∃ result final, NameM.matchName.run
          { entry := entry, out := out, name := component ++ 0 :: rest } = .ok (result, final) ∧
        (result = 0 ↔ SameUpToCase component name.text)) ∧
    ((∃ component, Terminated component ∧ NameM.Matches entry component ∧
        NameM.Matches entry' component) ↔ SameUpToCase name.fields name'.fields) := by
  refine ⟨fun out component buffer => ?_, fun out component rest buffer clean => ?_, ?_⟩
  · obtain ⟨reads, run, fields⟩ := @NameM.fat16GetFullRelativeFilename_run entry component []
      out (by rw [buffer]; decide)
    rw [buffer, name.itemName_eq stored, List.nil_append] at run
    exact ⟨reads, run, fields⟩
  · obtain ⟨final, run⟩ := @NameM.matchName_run entry _ component rest [] buffer
    rw [name.itemName_eq stored] at run
    exact ⟨_, final, run, name.compared_iff clean⟩
  rw [name.fields_same_iff, ← name.text_same_iff]
  constructor
  · rintro ⟨component, clean, first, second⟩
    have here := (name.matches_iff stored clean).mp first
    have there := (name'.matches_iff stored' clean).mp second
    exact here.symm.trans there
  · intro same
    have clean := name.terminated_text
    exact ⟨name.text, clean, (name.matches_iff stored clean).mpr rfl,
      (name'.matches_iff stored' clean).mpr same⟩

end Match

theorem nameCharacters_of_all {part : List UInt8}
    (all : (part.all fun character => decide (NameCharacter character)) = true) :
    ∀ character ∈ part, NameCharacter character :=
  fun character member => of_decide_eq_true (List.all_eq_true.mp all character member)

/-- The name `README.MD`. -/
def readmeName : ShortName where
  base := [82, 69, 65, 68, 77, 69]
  ext := [77, 68]
  baseNotEmpty := by decide
  baseFits := by decide
  extFits := by decide
  baseCharacters := nameCharacters_of_all (by decide)
  extCharacters := nameCharacters_of_all (by decide)

/-- The name `Readme.md`. -/
def lowerReadmeName : ShortName where
  base := [82, 101, 97, 100, 109, 101]
  ext := [109, 100]
  baseNotEmpty := by decide
  baseFits := by decide
  extFits := by decide
  baseCharacters := nameCharacters_of_all (by decide)
  extCharacters := nameCharacters_of_all (by decide)

/-- Two entries with those names answer to one component. -/
theorem shortNames_match_readme : ∃ component, Terminated component ∧
    NameM.Matches (fun address => readmeName.fields.getD address 0) component ∧
    NameM.Matches (fun address => lowerReadmeName.fields.getD address 0) component :=
  (@shortNames_match readmeName lowerReadmeName _ _ (by decide)
    (by decide)).2.2.mpr (by decide)

end Peachos
