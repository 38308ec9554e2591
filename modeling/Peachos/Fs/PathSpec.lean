import Peachos.Foundation.Split
import Peachos.Fs.PathParser
import Peachos.Kernel.Boot

/-! # What the path parser returns

A parsed path is a list of parts in fresh memory: the components of the text after the drive, up
to the first empty one. `pathparserParse_render` is the round trip for well-formed paths, and
`pathparserParse_rendersBack_iff` says which of the accepted paths are kept whole.
-/

namespace Peachos

open CInt Split

/-- The contents of the buffer for a component. -/
def partBuffer (name : List UInt8) : List UInt8 :=
  name ++ List.replicate (peachosMaxPath - name.length) 0

/-- The parts from `first` on have the given names, each terminated inside its buffer. They are
made of the objects `ptrs`. -/
def PartList (kernel : Kernel) : (first : Nat) → (names : List (List UInt8)) → (ptrs : List Nat) →
    Prop
  | first, [], ptrs => first = 0 ∧ ptrs = []
  | first, name :: names, ptrs => first ≠ 0 ∧ name.length < peachosMaxPath ∧
      ∃ buffer next rest, ptrs = first :: buffer :: rest ∧
        kernel.objs first = some (.pathPart { part := buffer, next := next }) ∧
        kernel.objs buffer = some (.bytes (partBuffer name)) ∧
        PartList kernel next names rest

/-- A part list stays as long as its objects do. -/
theorem PartList.of_kept {kernel next : Kernel} :
    ∀ {first : Nat} {names : List (List UInt8)} {ptrs : List Nat},
      PartList kernel first names ptrs → (∀ ptr ∈ ptrs, next.objs ptr = kernel.objs ptr) →
      PartList next first names ptrs := by
  intro first names
  induction names generalizing first with
  | nil => exact fun parts _ => parts
  | cons name names ih =>
      rintro ptrs ⟨notNull, short, buffer, after, rest, rfl, part, contents, parts⟩ kept
      refine ⟨notNull, short, buffer, after, rest, rfl, ?_, ?_, ih parts fun ptr member => ?_⟩
      · rw [kept first List.mem_cons_self, part]
      · rw [kept buffer (List.mem_cons_of_mem _ List.mem_cons_self), contents]
      · exact kept ptr (List.mem_cons_of_mem _ (List.mem_cons_of_mem _ member))

/-- `root` is a parsed path with the given drive and names. -/
structure ParsedPath (kernel : Kernel) (root drive : Nat) (names : List (List UInt8))
    (ptrs : List Nat) : Prop where
  parts : ∃ first, kernel.objs root = some (.pathRoot { driveNo := drive, first := first }) ∧
    PartList kernel first names ptrs

section Completed

variable {region : KernelRegion} {live live' : List Allocation} {base kernel next : Kernel}
  {owned : Nat → Prop} {path : List UInt8}

/-- The live objects of the first state are the same in the second. -/
def Keeps (live : List Allocation) (kernel next : Kernel) : Prop :=
  ∀ allocation ∈ live, next.objs allocation.ptr = kernel.objs allocation.ptr

/-- What a write to the start of an empty buffer leaves. -/
theorem partBuffer_eq (name : List UInt8) :
    (List.replicate peachosMaxPath (0 : UInt8)).take 0 ++ name ++
      (List.replicate peachosMaxPath (0 : UInt8)).drop name.length = partBuffer name := by
  rw [List.take_zero, List.nil_append, List.drop_replicate, partBuffer]

/-- **One component.** -/
theorem pathparserGetPathPart_completed
    (extended : Extended region live live' base kernel owned) {part : Nat} {rest : List UInt8}
    (run : (pathparserGetPathPart path).run kernel = .ok ((part, rest), next)) :
    (first 47 path = [] ∧ part = 0 ∧ Extended region live live' base next owned ∧
        Keeps live' kernel next) ∨
      (first 47 path ≠ [] ∧ rest = path.drop ((first 47 path).length + 1) ∧
        (first 47 path).length ≤ peachosMaxPath ∧ part ≠ 0 ∧
        (∀ allocation ∈ live', allocation.ptr ≠ part) ∧
        next.objs part = some (.bytes (partBuffer (first 47 path))) ∧
        Extended region live (⟨part, peachosMaxPath⟩ :: live') base next
          (fun ptr => ptr = part ∨ owned ptr) ∧
        Keeps live' kernel next) := by
  obtain ⟨buffer, allocated, alloc, run₁⟩ := Exec.bind_eq_ok.mp run
  change (if (first 47 path).isEmpty then _ else _ : K (Nat × List UInt8)).run allocated = _ at run₁
  by_cases empty : first 47 path = []
  · rw [if_pos (by rw [empty]; rfl)] at run₁
    obtain ⟨_, freed, free, run₂⟩ := Exec.bind_eq_ok.mp run₁
    cases run₂
    have placed := kmalloc_used extended.invariant (by decide) (by decide) alloc (kfree_eq_ok free)
    obtain ⟨final, free', extended', kept⟩ := extended.cancel placed
    rw [free] at free'
    cases free'
    exact .inl ⟨empty, rfl, extended', kept⟩
  · rw [if_neg (by rw [List.isEmpty_eq_false_iff.mpr empty]; exact Bool.false_ne_true)] at run₁
    obtain ⟨_, written, write, run₂⟩ := Exec.bind_eq_ok.mp run₁
    cases run₂
    rw [writeBytes] at write
    obtain ⟨contents, bytes, present, typed, write'⟩ := load_bind_eq_ok.mp write
    have placed := kmalloc_used extended.invariant (by decide) (by decide) alloc
      (by rw [present]; rfl)
    obtain rfl : bytes = List.replicate peachosMaxPath 0 := by
      rw [placed.present] at present
      cases present
      exact (Option.some.inj typed).symm
    rw [List.length_replicate, Nat.zero_add] at write'
    by_cases fits : (first 47 path).length ≤ peachosMaxPath
    · change (if (first 47 path).length ≤ _ then _ else _ : K Unit).run allocated = _ at write'
      rw [if_pos fits] at write'
      obtain ⟨_, rfl⟩ := store_eq_ok.mp write'
      refine .inr ⟨empty, rfl, fits, placed.notNull, placed.fresh, ?_,
        (extended.placed placed).setObj (.inl rfl) _, ?_⟩
      · rw [Kernel.setObj_objs_self]
        exact congrArg (fun bytes => some (Obj.bytes bytes)) (partBuffer_eq _)
      · intro allocation member
        rw [Kernel.setObj_objs_of_ne _ _ (placed.fresh allocation member)]
        exact placed.kept allocation member
    · change (if (first 47 path).length ≤ _ then _ else _ : K Unit).run allocated = _ at write'
      rw [if_neg fits] at write'
      cases write'

/-- A part for the first component of `path` was made after `last`. -/
structure PartMade (region : KernelRegion) (live live' : List Allocation) (base kernel next : Kernel)
    (owned : Nat → Prop) (path : List UInt8) (last part buffer : Nat) (rest : List UInt8) : Prop where
  named : first 47 path ≠ []
  rest : rest = path.drop ((first 47 path).length + 1)
  notNull : part ≠ 0
  fresh : ∀ allocation ∈ live', allocation.ptr ≠ part ∧ allocation.ptr ≠ buffer
  apart : part ≠ buffer
  partHere : next.objs part = some (.pathPart { part := buffer, next := 0 })
  bufferHere : next.objs buffer = some (.bytes (partBuffer (first 47 path)))
  extended : Extended region live (⟨part, sizeofPath⟩ :: ⟨buffer, peachosMaxPath⟩ :: live') base
    next fun ptr => ptr = part ∨ ptr = buffer ∨ owned ptr
  kept : ∀ allocation ∈ live', allocation.ptr ≠ last →
    next.objs allocation.ptr = kernel.objs allocation.ptr
  linked : last ≠ 0 → ∃ value, kernel.objs last = some (.pathPart value) ∧
    next.objs last = some (.pathPart { value with next := part })

/-- **One part.** It is linked to the last one. -/
theorem pathparserParsePathPart_completed
    (extended : Extended region live live' base kernel owned) {last part : Nat}
    {rest : List UInt8} (linked : last ≠ 0 → owned last)
    (run : (pathparserParsePathPart last path).run kernel = .ok ((part, rest), next)) :
    (first 47 path = [] ∧ part = 0 ∧ Extended region live live' base next owned ∧
        Keeps live' kernel next) ∨
      ∃ buffer, PartMade region live live' base kernel next owned path last part buffer rest := by
  obtain ⟨⟨buffer, rest'⟩, buffered, got, run₁⟩ := Exec.bind_eq_ok.mp run
  rcases pathparserGetPathPart_completed extended got with
    ⟨empty, rfl, extended', kept⟩ |
      ⟨named, rest'Eq, fits, notNull, fresh, contents, extended', kept⟩
  · cases run₁
    exact .inl ⟨empty, rfl, extended', kept⟩
  · right
    dsimp only at run₁
    rw [if_neg notNull] at run₁
    obtain ⟨ptr, allocated, alloc, run₂⟩ := Exec.bind_eq_ok.mp run₁
    obtain ⟨found, value, present, typed, run₃⟩ := load_bind_eq_ok.mp run₂
    obtain ⟨_, run₄⟩ := store_bind_eq_ok.mp run₃
    have placed := kmalloc_used extended'.invariant (by decide) (by decide) alloc
      (by rw [present]; rfl)
    have bufferApart : buffer ≠ ptr := placed.fresh _ List.mem_cons_self
    have bufferKept : allocated.objs buffer = buffered.objs buffer :=
      placed.kept _ List.mem_cons_self
    have oldKept : Keeps live' kernel allocated := by
      intro allocation member
      rw [placed.kept allocation (List.mem_cons_of_mem _ member), kept allocation member]
    have oldApart : ∀ allocation ∈ live', allocation.ptr ≠ ptr := fun allocation member =>
      placed.fresh allocation (List.mem_cons_of_mem _ member)
    have stored := (extended'.placed placed).setObj (.inl rfl)
      (.pathPart { value with part := buffer, next := 0 })
    by_cases null : last = 0
    · rw [if_neg (not_not.mpr null)] at run₄
      cases run₄
      refine ⟨buffer, named, rest'Eq, placed.notNull, fun allocation member =>
        ⟨oldApart allocation member, fresh allocation member⟩, bufferApart.symm,
        Kernel.setObj_objs_self .., ?_, stored, fun allocation member _ => ?_,
        fun notNull => (notNull null).elim⟩
      · rw [Kernel.setObj_objs_of_ne _ _ bufferApart, bufferKept, contents]
      · rw [Kernel.setObj_objs_of_ne _ _ (oldApart allocation member), oldKept allocation member]
    · have own := linked null
      obtain ⟨held, member, same⟩ := extended.held last own
      rw [if_pos null] at run₄
      obtain ⟨found', value', present', typed', run₅⟩ := load_bind_eq_ok.mp run₄
      obtain ⟨_, run₆⟩ := store_bind_eq_ok.mp run₅
      cases run₆
      have lastApart : last ≠ part := same ▸ oldApart held member
      have lastBuffer : last ≠ buffer := same ▸ fresh held member
      have lastHere : kernel.objs last = some (.pathPart value') := by
        rw [Kernel.setObj_objs_of_ne _ _ lastApart, ← same, oldKept held member, same] at present'
        cases found' <;> cases typed'
        exact present'
      refine ⟨buffer, named, rest'Eq, placed.notNull, fun allocation member =>
        ⟨oldApart allocation member, fresh allocation member⟩, bufferApart.symm, ?_, ?_,
        stored.setObj (.inr (.inr own)) _, fun allocation member different => ?_,
        fun _ => ⟨value', lastHere, Kernel.setObj_objs_self ..⟩⟩
      · rw [Kernel.setObj_objs_of_ne _ _ lastApart.symm, Kernel.setObj_objs_self]
      · rw [Kernel.setObj_objs_of_ne _ _ lastBuffer.symm, Kernel.setObj_objs_of_ne _ _ bufferApart,
          bufferKept, contents]
      · rw [Kernel.setObj_objs_of_ne _ _ different,
          Kernel.setObj_objs_of_ne _ _ (oldApart allocation member), oldKept allocation member]

/-- **The parts after one.** -/
theorem pathparserParseLoop_completed :
    ∀ (fuel : Nat) (path : List UInt8) (live' : List Allocation) (kernel : Kernel)
      (owned : Nat → Prop) (part buffer : Nat),
      Extended region live live' base kernel owned → owned part → part ≠ 0 →
      path.length < peachosMaxPath →
      kernel.objs part = some (.pathPart { part := buffer, next := 0 }) →
      (pathparserParseLoop fuel part path).run kernel = .ok ((), next) →
      ∃ live'' ptrs after, Extended region live live'' base next
          (fun ptr => ptr ∈ ptrs ∨ owned ptr) ∧
        (∀ allocation ∈ live', allocation.ptr ≠ part →
          next.objs allocation.ptr = kernel.objs allocation.ptr) ∧
        next.objs part = some (.pathPart { part := buffer, next := after }) ∧
        PartList next after (components 47 path) ptrs ∧ ptrs.Nodup ∧
        ∀ allocation ∈ live', allocation.ptr ∉ ptrs := by
  intro fuel
  induction fuel with
  | zero =>
      intro path live' kernel owned part buffer _ _ _ _ _ run
      cases run
  | succ fuel ih =>
      intro path live' kernel owned part buffer extended own notNull short here run
      obtain ⟨held, partLive, same⟩ := extended.held part own
      rw [pathparserParseLoop, if_neg notNull] at run
      obtain ⟨⟨part', path'⟩, middle, parsed, rest⟩ := Exec.bind_eq_ok.mp run
      dsimp only at rest
      rcases pathparserParsePathPart_completed extended (fun _ => own) parsed with
        ⟨empty, rfl, extended', kept⟩ | ⟨buffer', made⟩
      · obtain rfl : middle = next := by
          cases fuel with
          | zero => cases rest
          | succ fuel =>
              rw [pathparserParseLoop, if_pos rfl] at rest
              cases rest
              rfl
        rw [components_of_empty empty]
        refine ⟨live', [], 0, extended'.congr fun ptr => ?_, fun other member _ =>
          kept other member, ?_, ⟨rfl, rfl⟩, List.nodup_nil, fun _ _ => List.not_mem_nil⟩
        · simp only [List.not_mem_nil, false_or]
        · rw [← same, kept held partLive, same, here]
      · have short' : path'.length < peachosMaxPath := by
          rw [made.rest, List.length_drop]
          omega
        have shortName : (first 47 path).length < peachosMaxPath :=
          Nat.lt_of_le_of_lt (length_first_le 47 path) short
        obtain ⟨live'', ptrs, after, extended'', kept', part'After, parts, different, fresh⟩ :=
          ih path' _ middle _ part' buffer' made.extended (.inl rfl) made.notNull short'
            made.partHere rest
        obtain ⟨value, valueHere, linkedHere⟩ := made.linked notNull
        rw [here] at valueHere
        cases valueHere
        have keptOld : ∀ allocation ∈ live',
            next.objs allocation.ptr = middle.objs allocation.ptr := fun allocation member =>
          kept' allocation (List.mem_cons_of_mem _ (List.mem_cons_of_mem _ member))
            (made.fresh allocation member).1
        have bufferKept : next.objs buffer' = middle.objs buffer' :=
          kept' _ (List.mem_cons_of_mem _ List.mem_cons_self) made.apart.symm
        rw [components_of_nonempty made.named, ← made.rest]
        refine ⟨live'', part' :: buffer' :: ptrs, part', extended''.congr fun ptr => ?_,
          fun allocation member different => ?_, ?_, ⟨made.notNull, shortName, buffer', after, ptrs,
            rfl, part'After, ?_, parts⟩, ?_, fun allocation member inside => ?_⟩
        · simp only [List.mem_cons, or_assoc]
          constructor
          · rintro (member | first | second | before)
            · exact .inr (.inr (.inl member))
            · exact .inl first
            · exact .inr (.inl second)
            · exact .inr (.inr (.inr before))
          · rintro (first | second | member | before)
            · exact .inr (.inl first)
            · exact .inr (.inr (.inl second))
            · exact .inl member
            · exact .inr (.inr (.inr before))
        · rw [keptOld allocation member, made.kept allocation member different]
        · rw [← same, keptOld held partLive, same, linkedHere]
        · rw [bufferKept, made.bufferHere]
        · have bufferFresh := fresh _ (List.mem_cons_of_mem _ List.mem_cons_self)
          refine List.nodup_cons.mpr ⟨fun inside => ?_, List.nodup_cons.mpr ⟨bufferFresh, different⟩⟩
          exact (List.mem_cons.mp inside).elim made.apart (fresh _ List.mem_cons_self)
        · rcases List.mem_cons.mp inside with first | inside
          · exact (made.fresh allocation member).1 first
          rcases List.mem_cons.mp inside with second | later
          · exact (made.fresh allocation member).2 second
          · exact fresh allocation (List.mem_cons_of_mem _ (List.mem_cons_of_mem _ member)) later

/-- The text begins with a drive. -/
def drivePrefix (drive : Nat) (rest : List UInt8) : List UInt8 :=
  UInt8.ofNat (48 + drive) :: 58 :: 47 :: rest

/-- The valid format is a digit, a colon and a slash. -/
theorem pathparserPathValidFormat_iff : pathparserPathValidFormat path = true ↔
    ∃ drive < 10, ∃ rest, path = drivePrefix drive rest := by
  constructor
  · intro valid
    unfold pathparserPathValidFormat at valid
    simp only [Bool.and_eq_true, beq_iff_eq] at valid
    obtain ⟨⟨_, digit⟩, colon⟩ := valid
    match path with
    | [] => cases colon
    | [_] => cases colon
    | [_, _] => cases colon
    | head :: second :: third :: rest =>
        simp only [List.drop_succ_cons, List.drop_zero, List.take_succ_cons, List.take_zero,
          List.cons.injEq, and_true] at colon
        obtain ⟨rfl, rfl⟩ := colon
        unfold isDigit at digit
        rw [List.headD_cons, Bool.and_eq_true] at digit
        have lower : 48 ≤ head.toNat := UInt8.le_iff_toNat_le.mp (of_decide_eq_true digit.1)
        have upper : head.toNat ≤ 57 := UInt8.le_iff_toNat_le.mp (of_decide_eq_true digit.2)
        refine ⟨head.toNat - 48, by omega, rest, ?_⟩
        rw [drivePrefix, Nat.add_sub_cancel' lower, UInt8.ofNat_toNat]
  · rintro ⟨drive, digit, rest, rfl⟩
    unfold pathparserPathValidFormat
    have long : strnlen (drivePrefix drive rest) peachosMaxPath ≥ 3 := by
      unfold strnlen drivePrefix peachosMaxPath
      simp only [List.length_cons]
      omega
    have head : isDigit ((drivePrefix drive rest).headD 0) = true := by
      unfold drivePrefix
      rw [List.headD_cons]
      interval_cases drive <;> rfl
    rw [head, decide_eq_true long]
    rfl

theorem pathparserGetDriveByPath_prefix {drive : Nat} (digit : drive < 10) (rest : List UInt8) :
    pathparserGetDriveByPath (drivePrefix drive rest) = ((drive : Int), rest) := by
  have number : toNumericDigit (UInt8.ofNat (48 + drive)) = drive := by
    interval_cases drive <;> rfl
  rw [pathparserGetDriveByPath, pathparserPathValidFormat_iff.mpr ⟨drive, digit, rest, rfl⟩]
  exact congrArg (·, rest) number

/-- A path of the wrong length or format is refused, and nothing is allocated. -/
theorem pathparserParse_refused
    (refused : peachosMaxPath < path.length ∨ pathparserPathValidFormat path ≠ true) :
    (pathparserParse path).run kernel = .ok (0, kernel) := by
  rw [pathparserParse]
  by_cases long : strlen path > peachosMaxPath
  · rw [if_pos long, Exec.run_pure]
  · have format : pathparserPathValidFormat path = false :=
      Bool.eq_false_iff.mpr (refused.resolve_left long)
    rw [if_neg long, pathparserGetDriveByPath, format]
    rfl

/-- **A completed parse.** Its objects are different ones. -/
theorem pathparserParse_made (inv : KernelInvariant region live kernel) {root : Nat}
    (run : (pathparserParse path).run kernel = .ok (root, next)) :
    (root = 0 ∧ next = kernel ∧
        (peachosMaxPath < path.length ∨ pathparserPathValidFormat path ≠ true)) ∨
      (root ≠ 0 ∧ path.length ≤ peachosMaxPath ∧ ∃ drive < 10, ∃ rest,
        path = drivePrefix drive rest ∧ ∃ live' ptrs,
          Extended region live live' kernel next (fun ptr => ptr = root ∨ ptr ∈ ptrs) ∧
          ParsedPath next root drive (components 47 rest) ptrs ∧ (root :: ptrs).Nodup) := by
  by_cases refused : peachosMaxPath < path.length ∨ pathparserPathValidFormat path ≠ true
  · rw [pathparserParse_refused refused] at run
    cases run
    exact .inl ⟨rfl, rfl, refused⟩
  · right
    rw [not_or, not_lt, not_not] at refused
    obtain ⟨short, valid⟩ := refused
    obtain ⟨drive, digit, rest, rfl⟩ := pathparserPathValidFormat_iff.mp valid
    rw [pathparserParse, if_neg (show ¬ strlen (drivePrefix drive rest) > peachosMaxPath from
      Nat.not_lt.mpr short), pathparserGetDriveByPath_prefix digit] at run
    dsimp only at run
    rw [if_neg (by omega)] at run
    obtain ⟨root', rooted, create, run₁⟩ := Exec.bind_eq_ok.mp run
    obtain ⟨_, allocated, alloc, create₁⟩ := Exec.bind_eq_ok.mp create
    obtain ⟨found, value, present, typed, create₂⟩ := load_bind_eq_ok.mp create₁
    obtain ⟨_, create₃⟩ := store_bind_eq_ok.mp create₂
    cases create₃
    have placed := kmalloc_used inv (by decide) (by decide) alloc (by rw [present]; rfl)
    have extended := ((Extended.refl inv).placed placed).setObj (.inl rfl)
      (.pathRoot { value with driveNo := drive, first := 0 })
    rw [if_neg placed.notNull] at run₁
    obtain ⟨⟨part, rest'⟩, parsed, parse, run₂⟩ := Exec.bind_eq_ok.mp run₁
    dsimp only at run₂
    have rootHere : ∀ later : Kernel, Keeps (⟨root', sizeofPath⟩ :: live)
        (allocated.setObj root' (some (.pathRoot { value with driveNo := drive, first := 0 })))
          later → later.objs root' = some (.pathRoot { driveNo := drive, first := 0 }) := by
      intro later kept
      rw [kept _ List.mem_cons_self, Kernel.setObj_objs_self]
    rcases pathparserParsePathPart_completed extended (fun notNull => (notNull rfl).elim) parse with
      ⟨empty, rfl, extended', kept⟩ | ⟨buffer, made⟩
    · rw [if_pos rfl] at run₂
      cases run₂
      refine ⟨placed.notNull, short, drive, digit, rest, rfl, _, [], extended'.congr fun ptr => ?_,
        ⟨0, rootHere _ kept, ?_⟩, List.nodup_singleton _⟩
      · simp only [List.not_mem_nil]
      · rw [components_of_empty empty]
        exact ⟨rfl, rfl⟩
    · rw [if_neg made.notNull] at run₂
      obtain ⟨found', value', present', typed', run₃⟩ := load_bind_eq_ok.mp run₂
      obtain ⟨_, run₄⟩ := store_bind_eq_ok.mp run₃
      obtain ⟨⟨part', rest''⟩, parsed', parse', run₅⟩ := Exec.bind_eq_ok.mp run₄
      obtain ⟨_, looped, loop, run₆⟩ := Exec.bind_eq_ok.mp run₅
      cases run₆
      have kept : Keeps (⟨root, sizeofPath⟩ :: live) _ parsed := fun allocation member =>
        made.kept allocation member (by
          intro null
          have none := extended.invariant.held allocation member
          rw [null, extended.invariant.null] at none
          cases none)
      have rootKept := rootHere parsed kept
      obtain rfl : value' = { driveNo := drive, first := 0 } := by
        rw [rootKept] at present'
        cases present'
        exact (Option.some.inj typed').symm
      have apart : root ≠ part ∧ root ≠ buffer := made.fresh _ List.mem_cons_self
      have loop' : (pathparserParseLoop (rest''.length + 3) part rest').run
          (parsed.setObj root (some (.pathRoot { driveNo := drive, first := part }))) =
            .ok ((), next) := by
        rw [pathparserParseLoop, if_neg made.notNull, Exec.bind_of_ok parse']
        exact loop
      have short' : rest'.length < peachosMaxPath := by
        rw [made.rest, List.length_drop]
        unfold drivePrefix at short
        simp only [List.length_cons] at short
        omega
      obtain ⟨live', ptrs, after, extended', kept', partHere, parts, different, fresh⟩ :=
        pathparserParseLoop_completed _ rest' _ _ _ part buffer
          (made.extended.setObj (.inr (.inr (.inl rfl))) _) (.inl rfl) made.notNull short'
          (by rw [Kernel.setObj_objs_of_ne _ _ apart.1.symm, made.partHere]) loop'
      have shortName : (first 47 rest).length < peachosMaxPath := by
        have prefixed := length_first_le 47 rest
        unfold drivePrefix at short
        simp only [List.length_cons] at short
        omega
      have rootFinal : next.objs root = some (.pathRoot { driveNo := drive, first := part }) := by
        rw [kept' ⟨root, sizeofPath⟩ (by simp only [List.mem_cons, true_or, or_true]) apart.1,
          Kernel.setObj_objs_self]
      have bufferFinal : next.objs buffer = some (.bytes (partBuffer (first 47 rest))) := by
        rw [kept' ⟨buffer, peachosMaxPath⟩ (by simp only [List.mem_cons, true_or, or_true])
          made.apart.symm, Kernel.setObj_objs_of_ne _ _ apart.2.symm, made.bufferHere]
      refine ⟨placed.notNull, short, drive, digit, rest, rfl, live', part :: buffer :: ptrs,
        extended'.congr fun ptr => ?_, ⟨part, rootFinal, ?_⟩, ?_⟩
      · simp only [List.mem_cons, or_false]
        constructor
        · rintro (member | first | second | root)
          · exact .inr (.inr (.inr member))
          · exact .inr (.inl first)
          · exact .inr (.inr (.inl second))
          · exact .inl root
        · rintro (root | first | second | member)
          · exact .inr (.inr (.inr root))
          · exact .inr (.inl first)
          · exact .inr (.inr (.inl second))
          · exact .inl member
      · rw [components_of_nonempty made.named, ← made.rest]
        exact ⟨made.notNull, shortName, buffer, after, ptrs, rfl, partHere, bufferFinal, parts⟩
      · have partFresh : part ∉ ptrs := fresh _ List.mem_cons_self
        have bufferFresh : buffer ∉ ptrs := fresh _ (List.mem_cons_of_mem _ List.mem_cons_self)
        have rootFresh : root ∉ ptrs :=
          fresh _ (List.mem_cons_of_mem _ (List.mem_cons_of_mem _ List.mem_cons_self))
        simp only [List.nodup_cons, List.mem_cons, not_or]
        exact ⟨⟨apart.1, apart.2, rootFresh⟩, ⟨made.apart, partFresh⟩, bufferFresh, different⟩

/-- What a completed parse returns. -/
theorem pathparserParse_completed (inv : KernelInvariant region live kernel) {root : Nat}
    (run : (pathparserParse path).run kernel = .ok (root, next)) :
    (root = 0 ∧ next = kernel ∧
        (peachosMaxPath < path.length ∨ pathparserPathValidFormat path ≠ true)) ∨
      (root ≠ 0 ∧ path.length ≤ peachosMaxPath ∧ ∃ drive < 10, ∃ rest,
        path = drivePrefix drive rest ∧ ∃ live' ptrs,
          Extended region live live' kernel next (fun ptr => ptr = root ∨ ptr ∈ ptrs) ∧
          ParsedPath next root drive (components 47 rest) ptrs) := by
  refine (pathparserParse_made inv run).imp_right ?_
  rintro ⟨notNull, short, drive, digit, rest, format, live', ptrs, extended, parsed, _⟩
  exact ⟨notNull, short, drive, digit, rest, format, live', ptrs, extended, parsed⟩

end Completed

section Progress

variable {region : KernelRegion} {live live' : List Allocation} {base kernel : Kernel}
  {owned : Nat → Prop} {path : List UInt8}

/-- The first component takes a block when it is not empty. -/
theorem pathparserGetPathPart_completes (inv : KernelInvariant region live kernel)
    (short : (first 47 path).length ≤ peachosMaxPath) (room : 1 ≤ kernel.heap.freeBlocks) :
    ∃ part rest next, (pathparserGetPathPart path).run kernel = .ok ((part, rest), next) ∧
      (first 47 path ≠ [] → kernel.heap.freeBlocks ≤ next.heap.freeBlocks + 1) := by
  obtain ⟨buffer, allocated, alloc, placed, fewer⟩ := kmalloc_block inv
    (show blocksFor peachosMaxPath = 1 by decide) room (.bytes (List.replicate peachosMaxPath 0))
  rw [pathparserGetPathPart, kzalloc, Exec.bind_of_ok alloc]
  change ∃ part rest next, (if (first 47 path).isEmpty then _ else _ : K (Nat × List UInt8)).run
    allocated = _ ∧ _
  by_cases empty : first 47 path = []
  · obtain ⟨final, free, _⟩ := (Extended.refl inv).cancel placed
    rw [if_pos (by rw [empty]; rfl), Exec.bind_of_ok free]
    exact ⟨_, _, _, rfl, fun named => (named empty).elim⟩
  · have fits : 0 + (pathPartName path).length ≤
        (List.replicate peachosMaxPath (0 : UInt8)).length := by
      rw [List.length_replicate, Nat.zero_add]
      exact short
    rw [if_neg (by rw [List.isEmpty_eq_false_iff.mpr empty]; exact Bool.false_ne_true),
      Exec.bind_of_ok (writeBytes_run placed.present fits)]
    exact ⟨_, _, _, rfl, fun _ => fewer⟩

/-- A part takes two blocks. -/
theorem pathparserParsePathPart_completes
    (extended : Extended region live live' base kernel owned) {last : Nat}
    (linked : last ≠ 0 → owned last ∧ ∃ value, kernel.objs last = some (.pathPart value))
    (short : (first 47 path).length ≤ peachosMaxPath) (room : 1 ≤ kernel.heap.freeBlocks)
    (roomPart : first 47 path ≠ [] → 2 ≤ kernel.heap.freeBlocks) :
    ∃ part rest next, (pathparserParsePathPart last path).run kernel = .ok ((part, rest), next) ∧
      (first 47 path ≠ [] → kernel.heap.freeBlocks ≤ next.heap.freeBlocks + 2) := by
  obtain ⟨buffer, rest, buffered, got, fewer⟩ :=
    pathparserGetPathPart_completes extended.invariant short room
  rw [pathparserParsePathPart, Exec.bind_of_ok got]
  dsimp only
  rcases pathparserGetPathPart_completed extended got with
    ⟨empty, rfl, _, _⟩ | ⟨named, _, _, notNull, fresh, _, extended', kept⟩
  · rw [if_pos rfl]
    exact ⟨_, _, _, rfl, fun named => (named empty).elim⟩
  · have roomLeft : 1 ≤ buffered.heap.freeBlocks := by
      have before := roomPart named
      have after := fewer named
      omega
    obtain ⟨part, allocated, alloc, placed, fewer'⟩ := kmalloc_block extended'.invariant
      (show blocksFor sizeofPath = 1 by decide) roomLeft (.pathPart {})
    have loaded : (load Obj.pathPart? part).run allocated = .ok (_, allocated) :=
      load_of_obj placed.present rfl
    have partLive := Option.isSome_iff_exists.mpr ⟨_, placed.present⟩
    have count : kernel.heap.freeBlocks ≤ allocated.heap.freeBlocks + 2 := by
      have before := fewer named
      omega
    rw [if_neg notNull, kzalloc, Exec.bind_of_ok alloc, Exec.bind_of_ok loaded,
      Exec.bind_of_ok (store_of_live partLive)]
    by_cases null : last = 0
    · rw [if_neg (not_not.mpr null)]
      exact ⟨_, _, _, rfl, fun _ => count⟩
    · obtain ⟨own, value, here⟩ := linked null
      obtain ⟨held, member, rfl⟩ := extended.held last own
      have lastHere : ∀ contents, (allocated.setObj part contents).objs held.ptr =
          some (.pathPart value) := by
        intro contents
        have before := List.mem_cons_of_mem (⟨buffer, peachosMaxPath⟩ : Allocation) member
        rw [Kernel.setObj_objs_of_ne _ _ (placed.fresh held before), placed.kept held before,
          kept held member, here]
      have reloaded : ∀ contents, (load Obj.pathPart? held.ptr).run
          (allocated.setObj part contents) = .ok (value, allocated.setObj part contents) :=
        fun contents => load_of_obj (lastHere contents) rfl
      have lastLive : ∀ contents, ((allocated.setObj part contents).objs held.ptr).isSome :=
        fun contents => Option.isSome_iff_exists.mpr ⟨_, lastHere contents⟩
      rw [if_pos null, Exec.bind_of_ok (reloaded _), Exec.bind_of_ok (store_of_live (lastLive _))]
      exact ⟨_, _, _, rfl, fun _ => count⟩

/-- The loop completes while there are two blocks for each component, and one more. -/
theorem pathparserParseLoop_completes :
    ∀ (fuel : Nat) (path : List UInt8) (live' : List Allocation) (kernel : Kernel)
      (owned : Nat → Prop) (part : Nat),
      Extended region live live' base kernel owned → owned part → part ≠ 0 →
      path.length ≤ peachosMaxPath → path.length + 2 ≤ fuel →
      (∃ value, kernel.objs part = some (.pathPart value)) →
      2 * (components 47 path).length + 1 ≤ kernel.heap.freeBlocks →
      ∃ next, (pathparserParseLoop fuel part path).run kernel = .ok ((), next) := by
  intro fuel
  induction fuel with
  | zero =>
      intro path live' kernel owned part _ _ _ _ enough
      omega
  | succ fuel ih =>
      intro path live' kernel owned part extended own notNull short enough here room
      have shortName : (first 47 path).length ≤ peachosMaxPath :=
        (length_first_le 47 path).trans short
      have roomPart : first 47 path ≠ [] → 2 ≤ kernel.heap.freeBlocks := by
        intro named
        rw [components_of_nonempty named, List.length_cons] at room
        omega
      obtain ⟨part', rest, middle, parsed, fewer⟩ := pathparserParsePathPart_completes extended
        (fun _ => ⟨own, here⟩) shortName (by omega) roomPart
      rw [pathparserParseLoop, if_neg notNull, Exec.bind_of_ok parsed]
      dsimp only
      rcases pathparserParsePathPart_completed extended (fun _ => own) parsed with
        ⟨_, rfl, _, _⟩ | ⟨buffer, made⟩
      · obtain ⟨fuel, rfl⟩ : ∃ less, fuel = less + 1 := ⟨fuel - 1, by omega⟩
        rw [pathparserParseLoop, if_pos rfl]
        exact ⟨_, rfl⟩
      · have shorter : rest.length + 1 ≤ path.length := by
          have some := List.length_pos_iff.mpr made.named
          have inside := length_first_le 47 path
          rw [made.rest, List.length_drop]
          omega
        have left := fewer made.named
        rw [components_of_nonempty made.named, List.length_cons, ← made.rest] at room
        exact ih rest _ middle _ part' made.extended (.inl rfl) made.notNull (by omega) (by omega)
          ⟨_, made.partHere⟩ (by omega)

/-- **Room for a parsed path.** Two blocks for each component, and two more. -/
theorem pathparserParse_completes (inv : KernelInvariant region live kernel) {drive : Nat}
    (digit : drive < 10) {rest : List UInt8}
    (room : 2 * (components 47 rest).length + 2 ≤ kernel.heap.freeBlocks) :
    ∃ root next, (pathparserParse (drivePrefix drive rest)).run kernel = .ok (root, next) := by
  by_cases long : peachosMaxPath < (drivePrefix drive rest).length
  · exact ⟨_, _, pathparserParse_refused (.inl long)⟩
  · have short : rest.length + 3 ≤ peachosMaxPath := Nat.not_lt.mp long
    obtain ⟨root, allocated, alloc, placed, fewer⟩ := kmalloc_block inv
      (show blocksFor sizeofPath = 1 by decide) (by omega) (.pathRoot {})
    have loaded : (load Obj.pathRoot? root).run allocated = .ok (_, allocated) :=
      load_of_obj placed.present rfl
    have rootLive := Option.isSome_iff_exists.mpr ⟨_, placed.present⟩
    have extended := ((Extended.refl inv).placed placed).setObj (.inl rfl)
      (.pathRoot { driveNo := drive, first := 0 })
    have create : (pathparserCreateRoot drive).run kernel = .ok (root, allocated.setObj root
        (some (.pathRoot { driveNo := drive, first := 0 }))) := by
      rw [pathparserCreateRoot, kzalloc, Exec.bind_of_ok alloc, Exec.bind_of_ok loaded,
        Exec.bind_of_ok (store_of_live rootLive), Exec.run_pure]
    have shortName : (first 47 rest).length ≤ peachosMaxPath :=
      (length_first_le 47 rest).trans (by omega)
    have left : kernel.heap.freeBlocks ≤ (allocated.setObj root
        (some (.pathRoot { driveNo := drive, first := 0 }))).heap.freeBlocks + 1 := fewer
    obtain ⟨part, rest', parsed, parse, fewer'⟩ := pathparserParsePathPart_completes extended
      (fun notNull => (notNull rfl).elim) shortName (by omega) (by
        intro named
        rw [components_of_nonempty named, List.length_cons] at room
        omega)
    rw [pathparserParse, if_neg (show ¬ strlen (drivePrefix drive rest) > peachosMaxPath from long),
      pathparserGetDriveByPath_prefix digit]
    dsimp only
    rw [if_neg (by omega), Exec.bind_of_ok create, if_neg placed.notNull, Exec.bind_of_ok parse]
    dsimp only
    rcases pathparserParsePathPart_completed extended (fun notNull => (notNull rfl).elim) parse with
      ⟨_, rfl, _, _⟩ | ⟨buffer, made⟩
    · rw [if_pos rfl]
      exact ⟨_, _, rfl⟩
    · have rootHere : parsed.objs root = some (.pathRoot { driveNo := drive, first := 0 }) := by
        rw [made.kept _ List.mem_cons_self placed.notNull, Kernel.setObj_objs_self]
      have apart : root ≠ part ∧ root ≠ buffer := made.fresh _ List.mem_cons_self
      have reloaded : (load Obj.pathRoot? root).run parsed = .ok (_, parsed) :=
        load_of_obj rootHere rfl
      have rootLive' := Option.isSome_iff_exists.mpr ⟨_, rootHere⟩
      have remaining := fewer' made.named
      rw [components_of_nonempty made.named, List.length_cons, ← made.rest] at room
      have shorter : rest'.length ≤ rest.length := by
        rw [made.rest, List.length_drop]
        omega
      have stored := made.extended.setObj (.inr (.inr (.inl rfl)))
        (.pathRoot { driveNo := drive, first := part })
      have partHere : ∃ value, (parsed.setObj root
          (some (.pathRoot { driveNo := drive, first := part }))).objs part =
            some (.pathPart value) :=
        ⟨_, by rw [Kernel.setObj_objs_of_ne _ _ apart.1.symm, made.partHere]⟩
      have roomLeft : 2 * (components 47 rest').length + 1 ≤ (parsed.setObj root
          (some (.pathRoot { driveNo := drive, first := part }))).heap.freeBlocks := by
        rw [Kernel.setObj_heap]
        omega
      obtain ⟨part', rest'', middle, parse', fewer''⟩ := pathparserParsePathPart_completes stored
        (fun _ => ⟨.inl rfl, partHere⟩) ((length_first_le 47 rest').trans (by omega))
        (by omega) (by
          intro named
          rw [components_of_nonempty named, List.length_cons] at roomLeft
          omega)
      have looped : ∃ next, (pathparserParseLoop (rest''.length + 2) part' rest'').run middle =
          .ok ((), next) := by
        rcases pathparserParsePathPart_completed stored (fun _ => .inl rfl) parse' with
          ⟨_, rfl, _, _⟩ | ⟨buffer', made'⟩
        · rw [pathparserParseLoop, if_pos rfl]
          exact ⟨_, rfl⟩
        · have left' := fewer'' made'.named
          rw [components_of_nonempty made'.named, List.length_cons, ← made'.rest] at roomLeft
          have shorter' : rest''.length ≤ rest'.length := by
            rw [made'.rest, List.length_drop]
            omega
          exact pathparserParseLoop_completes _ rest'' _ middle _ part' made'.extended (.inl rfl)
            made'.notNull (by omega) le_rfl ⟨_, made'.partHere⟩ (by omega)
      obtain ⟨next, loop⟩ := looped
      rw [if_neg made.notNull, Exec.bind_of_ok reloaded, Exec.bind_of_ok (store_of_live rootLive'),
        Exec.bind_of_ok parse']
      dsimp only
      rw [Exec.bind_of_ok loop]
      exact ⟨_, _, rfl⟩

end Progress

end Peachos
