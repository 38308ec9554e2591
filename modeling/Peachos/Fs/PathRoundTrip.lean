import Peachos.Fs.PathSpec

/-! # Rendering paths

A path that is rendered from a drive and components parses to them
(`pathparserParse_render`), and an accepted path is rendered back from its parts exactly
when none of its components but the last is empty (`pathparserParse_rendersBack_iff`).
-/

namespace Peachos

open CInt Split

/-- The text of a path. -/
def renderPath (drive : Nat) (names : List (List UInt8)) : List UInt8 :=
  drivePrefix drive ([47].intercalate names)

section Render

variable {region : KernelRegion} {live : List Allocation} {kernel next : Kernel}
  {path : List UInt8}

/-- A name that can stand between two slashes. -/
structure PathName (name : List UInt8) : Prop where
  nonempty : name ≠ []
  noSlash : 47 ∉ name
  noTerminator : 0 ∉ name

/-- The parser returns the drive and the components of `path`. -/
def ParsesTo (kernel : Kernel) (path : List UInt8) (drive : Nat) (names : List (List UInt8)) :
    Prop :=
  ∃ root next ptrs, (pathparserParse path).run kernel = .ok (root, next) ∧ root ≠ 0 ∧
    ParsedPath next root drive names ptrs

/-- **The round trip.** A rendered path of at most 108 bytes, with or without a trailing slash,
parses to its drive and components while there is memory for them. A path that is longer or
does not begin with a drive is refused. -/
theorem pathparserParse_render (inv : KernelInvariant region live kernel) :
    (∀ drive < 10, ∀ names : List (List UInt8), (∀ name ∈ names, PathName name) →
      ∀ trailing, trailing = [] ∨ trailing = [47] →
        (renderPath drive names ++ trailing).length ≤ peachosMaxPath →
        2 * names.length + 2 ≤ kernel.heap.freeBlocks →
        ParsesTo kernel (renderPath drive names ++ trailing) drive names) ∧
      ∀ path, (peachosMaxPath < path.length ∨ ¬ ∃ drive < 10, ∃ rest,
          path = drivePrefix drive rest) →
        (pathparserParse path).run kernel = .ok (0, kernel) := by
  constructor
  · intro drive digit names proper trailing ends short room
    have split : components 47 ([47].intercalate names ++ trailing) = names := by
      have joined := components_join fun name member =>
        ⟨(proper name member).nonempty, (proper name member).noSlash⟩
      rcases ends with rfl | rfl
      · rw [List.append_nil]
        exact joined.1
      · exact joined.2
    have text : renderPath drive names ++ trailing =
        drivePrefix drive ([47].intercalate names ++ trailing) := rfl
    rw [text] at short ⊢
    rw [← split] at room
    obtain ⟨root, next, run⟩ := pathparserParse_completes inv digit room
    rcases pathparserParse_completed inv run with
      ⟨_, _, refused⟩ | ⟨notNull, _, drive', digit', rest, same, live', ptrs, _, parsed⟩
    · rcases refused with long | invalid
      · omega
      · exact (invalid (pathparserPathValidFormat_iff.mpr ⟨drive, digit, _, rfl⟩)).elim
    · have equal := List.cons.inj same
      obtain rfl : rest = [47].intercalate names ++ trailing :=
        (List.cons.inj (List.cons.inj equal.2).2).2.symm
      obtain rfl : drive' = drive := by
        have value := congrArg UInt8.toNat equal.1
        simp only [UInt8.toNat_ofNat'] at value
        omega
      rw [split] at parsed
      exact ⟨root, next, ptrs, run, notNull, parsed⟩
  · intro path refused
    apply pathparserParse_refused
    rwa [ne_eq, pathparserPathValidFormat_iff]

/-- The path `0:/a/bc/` on the booted kernel. -/
theorem pathparserParse_render_boot :
    ParsesTo bootKernel [48, 58, 47, 97, 47, 98, 99, 47] 0 [[97], [98, 99]] := by
  have room : 2 * [[97], [98, 99]].length + 2 ≤ bootKernel.heap.freeBlocks := by
    rw [bootKernel, freshKernel_freeBlocks]
    decide
  have proper : ∀ name ∈ [[97], [98, 99]], PathName name := by
    intro name member
    simp only [List.mem_cons, List.not_mem_nil, or_false] at member
    rcases member with rfl | rfl <;> exact ⟨by decide, by decide, by decide⟩
  exact (pathparserParse_render (freshKernel_invariant kernelHeapRegion)).1 0 (by decide) _ proper
    [47] (.inr rfl) (by decide) room

/-- The names of the parts from `first` on, each up to its terminator. -/
def readParts (kernel : Kernel) : (fuel first : Nat) → List (List UInt8)
  | 0, _ => []
  | fuel + 1, first =>
      if first = 0 then []
      else
        match (kernel.objs first).bind Obj.pathPart? with
        | none => []
        | some value =>
            match (kernel.objs value.part).bind Obj.bytes? with
            | none => []
            | some contents =>
                contents.takeWhile (· ≠ 0) :: readParts kernel fuel value.next

/-- The text of the path that a root stands for. -/
def renderRoot (kernel : Kernel) (root : Nat) : List UInt8 :=
  match (kernel.objs root).bind Obj.pathRoot? with
  | none => []
  | some value => renderPath value.driveNo.toNat (readParts kernel peachosMaxPath value.first)

/-- The terminated name in a buffer. -/
theorem takeWhile_partBuffer {name : List UInt8} (text : 0 ∉ name)
    (short : name.length < peachosMaxPath) : (partBuffer name).takeWhile (· ≠ 0) = name := by
  obtain ⟨more, length⟩ : ∃ more, peachosMaxPath - name.length = more + 1 :=
    ⟨peachosMaxPath - name.length - 1, by omega⟩
  rw [partBuffer, length, List.replicate_succ]
  exact first_append text

theorem readParts_of_list : ∀ (fuel : Nat) {first : Nat} {names : List (List UInt8)}
    {ptrs : List Nat}, PartList kernel first names ptrs → (∀ name ∈ names, 0 ∉ name) →
      names.length ≤ fuel → readParts kernel fuel first = names := by
  intro fuel
  induction fuel with
  | zero =>
      intro first names ptrs _ _ few
      rw [List.length_eq_zero_iff.mp (Nat.le_zero.mp few)]
      rfl
  | succ fuel ih =>
      intro first names ptrs parts text few
      cases names with
      | nil => rw [readParts, if_pos parts.1]
      | cons name names =>
          obtain ⟨notNull, short, buffer, after, rest, rfl, part, contents, parts⟩ := parts
          have here := takeWhile_partBuffer (text name List.mem_cons_self) short
          have later := ih parts (fun other member => text other (List.mem_cons_of_mem _ member))
            (Nat.le_of_succ_le_succ few)
          simp only [readParts, notNull, part, contents, Option.bind_some, Obj.pathPart?,
            Obj.bytes?, if_false, here, later]

/-- There are at most as many components as characters. -/
theorem length_components_le (text : List UInt8) : (components 47 text).length ≤ text.length := by
  induction length : text.length using Nat.strong_induction_on generalizing text with
  | _ count ih =>
      by_cases empty : first 47 text = []
      · rw [components_of_empty empty]
        exact Nat.zero_le _
      · have some := List.length_pos_iff.mpr empty
        have inside := length_first_le 47 text
        have shorter := ih (text.length - ((first 47 text).length + 1)) (by omega)
          (text.drop ((first 47 text).length + 1)) List.length_drop
        rw [components_of_nonempty empty, List.length_cons]
        omega

theorem zero_not_mem_components {text : List UInt8} (clean : 0 ∉ text) :
    ∀ name ∈ components 47 text, 0 ∉ name := by
  induction length : text.length using Nat.strong_induction_on generalizing text with
  | _ count ih =>
      intro name member
      by_cases empty : first 47 text = []
      · rw [components_of_empty empty] at member
        exact (List.not_mem_nil member).elim
      · have some := List.length_pos_iff.mpr empty
        have inside := length_first_le 47 text
        rw [components_of_nonempty empty] at member
        rcases List.mem_cons.mp member with rfl | later
        · exact fun zero => clean ((List.takeWhile_prefix _).subset zero)
        · exact ih _ (by omega) (fun zero => clean (List.mem_of_mem_drop zero)) List.length_drop
            name later

/-- The parts give the path back, with or without a trailing slash. -/
def RendersBack (path rendered : List UInt8) : Prop :=
  rendered = path ∨ rendered ++ [47] = path

/-- What a completed parse renders to. -/
theorem renderRoot_completed (inv : KernelInvariant region live kernel) (text : 0 ∉ path)
    {root : Nat} (run : (pathparserParse path).run kernel = .ok (root, next)) (found : root ≠ 0) :
    ∃ drive < 10, ∃ rest, path = drivePrefix drive rest ∧
      renderRoot next root = renderPath drive (components 47 rest) ∧
      ∀ value, next.objs root = some (.pathRoot value) → value.first ≠ 0 →
        components 47 rest ≠ [] := by
  rcases pathparserParse_completed inv run with
    ⟨null, _⟩ | ⟨_, short, drive, digit, rest, rfl, _, ptrs, _, ⟨first, rootHere, parts⟩⟩
  · exact (found null).elim
  · have clean : 0 ∉ rest := fun zero => text (by
      unfold drivePrefix
      simp only [List.mem_cons, zero, or_true])
    have count : (components 47 rest).length ≤ peachosMaxPath := by
      have few := length_components_le rest
      unfold drivePrefix at short
      simp only [List.length_cons] at short
      omega
    have names := readParts_of_list peachosMaxPath parts (zero_not_mem_components clean) count
    refine ⟨drive, digit, rest, rfl, ?_, ?_⟩
    · simp only [renderRoot, rootHere, Option.bind_some, Obj.pathRoot?, names, Int.toNat_natCast]
    · intro value here notNull none
      rw [rootHere] at here
      cases here
      rw [none] at parts
      exact notNull parts.1

/-- **When no character is dropped.** The parts of an accepted path give it back exactly when
no component but the last is empty. -/
theorem pathparserParse_rendersBack_iff (inv : KernelInvariant region live kernel)
    (text : 0 ∉ path) {root : Nat} {value : PathRoot}
    (run : (pathparserParse path).run kernel = .ok (root, next))
    (rooted : next.objs root = some (.pathRoot value)) (hasPart : value.first ≠ 0) :
    RendersBack path (renderRoot next root) ↔ [] ∉ ((path.drop 3).splitOn 47).dropLast := by
  have found : root ≠ 0 := by
    rintro rfl
    rcases pathparserParse_completed inv run with ⟨_, rfl, _⟩ | ⟨notNull, _⟩
    · rw [inv.null] at rooted
      cases rooted
    · exact notNull rfl
  obtain ⟨drive, _, rest, rfl, rendered, some⟩ := renderRoot_completed inv text run found
  have after : (drivePrefix drive rest).drop 3 = rest := rfl
  have same : ∀ text text', drivePrefix drive text = drivePrefix drive text' ↔ text = text' := by
    intro text text'
    simp only [drivePrefix, List.cons.injEq, true_and]
  rw [rendered, after, ← join_components_iff (some value rooted hasPart), RendersBack, renderPath,
    show drivePrefix drive ([47].intercalate (components 47 rest)) ++ [47] =
      drivePrefix drive ([47].intercalate (components 47 rest) ++ [47]) from rfl, same, same]

/-- A path with a first component is accepted on the booted kernel. -/
theorem pathparserParse_boot {rest : List UInt8} (short : rest.length + 3 ≤ peachosMaxPath)
    (named : components 47 rest ≠ []) : ∃ root next value,
      (pathparserParse (drivePrefix 0 rest)).run bootKernel = .ok (root, next) ∧ root ≠ 0 ∧
        next.objs root = some (.pathRoot value) ∧ value.first ≠ 0 := by
  have count := length_components_le rest
  have inv := freshKernel_invariant kernelHeapRegion
  obtain ⟨root, next, run⟩ := @pathparserParse_completes _ _ bootKernel inv 0 (by decide) rest (by
    rw [bootKernel, freshKernel_freeBlocks,
      show kernelHeapRegion.bytes / peachosHeapBlockSize = 25600 by decide]
    unfold peachosMaxPath at short
    omega)
  rcases pathparserParse_completed inv run with
    ⟨_, _, refused⟩ | ⟨notNull, _, drive, _, rest', same, _, ptrs, _, ⟨first, here, parts⟩⟩
  · rcases refused with long | invalid
    · have length : (drivePrefix 0 rest).length = rest.length + 3 := rfl
      omega
    · exact (invalid (pathparserPathValidFormat_iff.mpr ⟨0, by decide, rest, rfl⟩)).elim
  · obtain rfl : rest = rest' := (List.cons.inj (List.cons.inj (List.cons.inj same).2).2).2
    refine ⟨root, next, _, run, notNull, here, ?_⟩
    obtain ⟨name, names, split⟩ := List.exists_cons_of_ne_nil named
    rw [split] at parts
    exact parts.1

/-- The path `0:/a/bc/` is rendered back. -/
theorem pathparserParse_rendersBack_boot : ∃ root next,
    (pathparserParse [48, 58, 47, 97, 47, 98, 99, 47]).run bootKernel = .ok (root, next) ∧
      RendersBack [48, 58, 47, 97, 47, 98, 99, 47] (renderRoot next root) := by
  obtain ⟨root, next, value, run, _, rooted, hasPart⟩ :=
    @pathparserParse_boot [97, 47, 98, 99, 47] (by decide) (by decide)
  exact ⟨root, next, run, (pathparserParse_rendersBack_iff
    (freshKernel_invariant kernelHeapRegion) (by decide) run rooted hasPart).mpr (by decide)⟩

/-- The path `0:/a//b` is accepted, and its last component is dropped. -/
theorem pathparserParse_emptyComponent : ∃ root next value,
    (pathparserParse [48, 58, 47, 97, 47, 47, 98]).run bootKernel = .ok (root, next) ∧
      next.objs root = some (.pathRoot value) ∧ value.first ≠ 0 ∧
      renderRoot next root = [48, 58, 47, 97] ∧
      ¬ RendersBack [48, 58, 47, 97, 47, 47, 98] (renderRoot next root) := by
  obtain ⟨root, next, value, run, found, rooted, hasPart⟩ :=
    @pathparserParse_boot [97, 47, 47, 98] (by decide) (by decide)
  obtain ⟨drive, digit, rest, same, rendered, _⟩ := renderRoot_completed
    (freshKernel_invariant kernelHeapRegion) (by decide) run found
  obtain ⟨head, rfl⟩ : UInt8.ofNat (48 + drive) = 48 ∧ rest = [97, 47, 47, 98] := by
    have parts := List.cons.inj same
    exact ⟨parts.1.symm, (List.cons.inj (List.cons.inj parts.2).2).2.symm⟩
  have dropped : renderRoot next root = [48, 58, 47, 97] := by
    rw [rendered, renderPath, drivePrefix, head]
    decide
  refine ⟨root, next, value, run, rooted, hasPart, dropped, ?_⟩
  rw [dropped]
  unfold RendersBack
  decide

end Render

end Peachos
