import Peachos.Kernel.Boot
import Peachos.Memory.PageMap

/-! # Creating and freeing page directories

A completed `paging_new_4gb` made an identity map in fresh memory (`pagingNew4gb_spec`), and it
completes while its blocks are free (`pagingNew4gb_packed`). `paging_free_4gb` frees the
objects of the page directory and no other (`pagingFree4gb_spec`).
-/

namespace Peachos

open CInt

/-- The entry that `paging_new_4gb` gives to a page: the page itself. -/
def identityPages (flags page : Nat) : Nat := page * pagingPageSize ||| flags

/-- The first `i` tables have been made. -/
structure TablesMade (tables : PageTables) (flags i : Nat) (kernel : Kernel) : Prop where
  directory : ∃ entries, kernel.objs tables.directory = some (.dwords entries) ∧
    ∀ j < i, entries j = tables.table j ||| flags ||| pagingIsWriteable
  table : ∀ j < i, ∃ entries, kernel.objs (tables.table j) = some (.dwords entries) ∧
    ∀ b < pagingTotalEntriesPerTable,
      entries b = identityPages flags (j * pagingTotalEntriesPerTable + b)
  aligned : ∀ j < i, tables.table j % pagingPageSize = 0
  bounded : ∀ j < i, tables.table j + pagingPageSize ≤ 4294967296
  apart : ∀ j < i, ∀ k < i, tables.table j = tables.table k → j = k
  notDirectory : ∀ j < i, tables.table j ≠ tables.directory

/-- The objects made when the first `i` tables have been. -/
def PageTables.ownsBelow (tables : PageTables) (i ptr : Nat) : Prop :=
  ptr = tables.directory ∨ ∃ j < i, ptr = tables.table j

theorem identityOffset {i b : Nat} (inside : i < 1024) (within : b < 1024) :
    u32 (i32 (i * (1024 * 4096) : Nat) + i32 (b * (4096 : Nat))) = (i * 1024 + b) * 4096 := by
  have product : i32 (b * (4096 : Nat)) = b * 4096 := i32_of_range (by omega) (by omega)
  have sum : u32 (i32 (i * (1024 * 4096) : Nat) + b * 4096) = u32 (i * 4194304 + b * 4096) := by
    unfold u32 i32
    omega
  rw [product, sum, u32_of_nonneg (by omega) (by omega)]
  omega

/-- The table that the inner loop fills maps its pages to themselves. -/
theorem fillTable_eq {entries : Nat → Nat} {flags i b : Nat}
    (inside : i < pagingTotalEntriesPerTable) (within : b < pagingTotalEntriesPerTable) :
    fillTable entries (i32 (i * (pagingTotalEntriesPerTable * pagingPageSize) : Nat)) flags b =
      identityPages flags (i * pagingTotalEntriesPerTable + b) := by
  unfold fillTable identityPages
  rw [if_pos within, identityOffset inside within]

section New

variable {region : KernelRegion} {live : List Allocation} {kernel : Kernel} {flags : Nat}

/-- What holds of the new table and of the earlier ones. -/
theorem updateTable_forall {table : Nat → Nat} {i entry : Nat} (motive : Nat → Nat → Prop)
    (last : motive i entry) (earlier : ∀ j < i, motive j (table j)) :
    ∀ j < i + 1, motive j (Function.update table i entry j) := by
  intro j bound
  rcases Nat.lt_succ_iff_lt_or_eq.mp bound with old | rfl
  · rw [Function.update_of_ne (Nat.ne_of_lt old)]
    exact earlier j old
  · rw [Function.update_self]
    exact last

/-- **One table.** -/
theorem pagingNew4gbLoop_step {live' : List Allocation} {middle next : Kernel}
    {tables : PageTables} {i : Nat} (inside : i < pagingTotalEntriesPerTable) {count : Nat}
    (extended : Extended region live live' kernel middle (tables.ownsBelow i))
    (made : TablesMade tables flags i middle)
    (run : (pagingNew4gbLoop tables.directory flags (count + 1) i
      (i32 (i * (pagingTotalEntriesPerTable * pagingPageSize) : Nat))).run middle =
        .ok ((), next)) :
    ∃ live'' last tables', tables'.directory = tables.directory ∧
      Extended region live live'' kernel last (tables'.ownsBelow (i + 1)) ∧
      TablesMade tables' flags (i + 1) last ∧
      (pagingNew4gbLoop tables.directory flags count (i + 1)
        (i32 ((i + 1) * (pagingTotalEntriesPerTable * pagingPageSize) : Nat))).run last =
          .ok ((), next) := by
  obtain ⟨entry, allocated, alloc, run₁⟩ := Exec.bind_eq_ok.mp run
  obtain ⟨contents, fresh, entryHere, _, run₂⟩ := load_bind_eq_ok.mp run₁
  obtain ⟨_, run₃⟩ := store_bind_eq_ok.mp run₂
  obtain ⟨contents', entries, directoryHere, typed, run₄⟩ := load_bind_eq_ok.mp run₃
  obtain ⟨_, run₅⟩ := store_bind_eq_ok.mp run₄
  have placed := kmalloc_used extended.invariant (by decide) (by decide) alloc
    (by rw [entryHere]; rfl)
  have kept : ∀ ptr, tables.ownsBelow i ptr →
      ptr ≠ entry ∧ allocated.objs ptr = middle.objs ptr := by
    intro ptr own
    obtain ⟨allocation, member, rfl⟩ := extended.held ptr own
    exact ⟨placed.fresh allocation member, placed.kept allocation member⟩
  obtain ⟨directoryApart, directoryKept⟩ := kept tables.directory (.inl rfl)
  have tableKept : ∀ j < i, tables.table j ≠ entry ∧
      allocated.objs (tables.table j) = middle.objs (tables.table j) :=
    fun j before => kept _ (.inr ⟨j, before, rfl⟩)
  have same : Function.update tables.table i entry i = entry := Function.update_self ..
  have oldTable : ∀ j < i, Function.update tables.table i entry j = tables.table j :=
    fun j before => Function.update_of_ne (Nat.ne_of_lt before) ..
  have page : allocated.objs tables.directory = some (.dwords entries) := by
    rw [Kernel.setObj_objs_of_ne _ _ directoryApart] at directoryHere
    cases contents' <;> cases typed
    exact directoryHere
  obtain ⟨before, beforeHere, values⟩ := made.directory
  obtain rfl : before = entries := by
    rw [directoryKept, beforeHere] at page
    exact Obj.dwords.inj (Option.some.inj page)
  refine ⟨⟨entry, sizeofTable⟩ :: live',
    (allocated.setObj entry (some (.dwords (fillTable fresh
      (i32 (i * (pagingTotalEntriesPerTable * pagingPageSize) : Nat)) flags)))).setObj
        tables.directory (some (.dwords
          (Function.update before i (entry ||| flags ||| pagingIsWriteable)))),
    { tables with table := Function.update tables.table i entry }, rfl,
    (((extended.placed placed).setObj (.inl rfl) (.dwords _)).setObj (.inr (.inl rfl))
      (.dwords _)).congr ?_, ?_, ?_⟩
  · intro ptr
    unfold PageTables.ownsBelow
    constructor
    · rintro (rfl | rfl | ⟨j, inside, rfl⟩)
      · exact .inr ⟨i, Nat.lt_succ_self i, same.symm⟩
      · exact .inl rfl
      · exact .inr ⟨j, Nat.lt_succ_of_lt inside, (oldTable j inside).symm⟩
    · rintro (rfl | ⟨j, inside, rfl⟩)
      · exact .inr (.inl rfl)
      · rcases Nat.lt_succ_iff_lt_or_eq.mp inside with earlier | rfl
        · exact .inr (.inr ⟨j, earlier, oldTable j earlier⟩)
        · exact .inl same
  · have member : (⟨entry, sizeofTable⟩ : Allocation) ∈ ⟨entry, sizeofTable⟩ :: live' :=
      List.mem_cons_self
    constructor
    · refine ⟨_, Kernel.setObj_objs_self .., updateTable_forall (fun j table =>
        Function.update before i (entry ||| flags ||| pagingIsWriteable) j =
          table ||| flags ||| pagingIsWriteable) ?_ fun j old => ?_⟩
      · rw [Function.update_self]
      · rw [Function.update_of_ne (Nat.ne_of_lt old), values j old]
    · refine updateTable_forall (fun j table => ∃ entries, Kernel.objs _ table = some (.dwords
        entries) ∧ ∀ b < pagingTotalEntriesPerTable, entries b =
          identityPages flags (j * pagingTotalEntriesPerTable + b)) ?_ fun j old => ?_
      · refine ⟨fillTable fresh (i32 (i * (pagingTotalEntriesPerTable * pagingPageSize) : Nat)) flags,
          ?_, fun b within => fillTable_eq inside within⟩
        rw [Kernel.setObj_objs_of_ne _ _ directoryApart.symm, Kernel.setObj_objs_self]
      · rw [Kernel.setObj_objs_of_ne _ _ (made.notDirectory j old),
          Kernel.setObj_objs_of_ne _ _ (tableKept j old).1, (tableKept j old).2]
        exact made.table j old
    · exact updateTable_forall (fun _ table => table % pagingPageSize = 0)
        (placed.invariant.aligned member) made.aligned
    · refine updateTable_forall (fun _ table => table + pagingPageSize ≤ 4294967296) ?_ made.bounded
      have below := placed.invariant.below member
      unfold blocksFor peachosHeapBlockSize at below
      unfold pagingPageSize
      dsimp only [sizeofTable] at below
      omega
    · refine updateTable_forall (fun j table => ∀ k < i + 1,
        table = Function.update tables.table i entry k → j = k) ?_ fun j old => ?_
      · exact updateTable_forall (fun k table => entry = table → i = k) (fun _ => rfl)
          fun j old equal => ((tableKept j old).1 equal.symm).elim
      · exact updateTable_forall (fun k table => tables.table j = table → j = k)
          (fun equal => ((tableKept j old).1 equal).elim)
          fun k earlier equal => made.apart j old k earlier equal
    · exact updateTable_forall (fun _ table => table ≠ tables.directory) directoryApart.symm
        made.notDirectory
  · have advance : i32 (i32 (i * (pagingTotalEntriesPerTable * pagingPageSize) : Nat) +
        pagingTotalEntriesPerTable * pagingPageSize) =
          i32 ((i + 1) * (pagingTotalEntriesPerTable * pagingPageSize) : Nat) := by
      unfold i32 pagingTotalEntriesPerTable pagingPageSize
      omega
    rw [← advance]
    exact run₅

/-- **All the tables.** -/
theorem pagingNew4gbLoop_spec {next : Kernel} :
    ∀ (count i : Nat) (live' : List Allocation) (middle : Kernel) (tables : PageTables),
      i + count = pagingTotalEntriesPerTable →
      Extended region live live' kernel middle (tables.ownsBelow i) →
      TablesMade tables flags i middle →
      (pagingNew4gbLoop tables.directory flags count i
        (i32 (i * (pagingTotalEntriesPerTable * pagingPageSize) : Nat))).run middle =
          .ok ((), next) →
      ∃ live'' tables', tables'.directory = tables.directory ∧
        Extended region live live'' kernel next
          (tables'.ownsBelow pagingTotalEntriesPerTable) ∧
        TablesMade tables' flags pagingTotalEntriesPerTable next := by
  intro count
  induction count with
  | zero =>
      intro i live' middle tables reached extended made run
      cases run
      obtain rfl : i = pagingTotalEntriesPerTable := by omega
      exact ⟨live', tables, rfl, extended, made⟩
  | succ count ih =>
      intro i live' middle tables reached extended made run
      obtain ⟨live'', last, tables', same, extended', made', rest⟩ :=
        pagingNew4gbLoop_step (by omega) extended made run
      rw [← same] at rest ⊢
      exact ih (i + 1) live'' last tables' (by omega) extended' made' rest

/-- Without a directory the loop faults. -/
theorem pagingNew4gbLoop_null (inv : KernelInvariant region live kernel) {offset : Int} {i : Nat}
    {next : Kernel} {count : Nat}
    (run : (pagingNew4gbLoop 0 flags (count + 1) i offset).run kernel = .ok ((), next)) :
    False := by
  obtain ⟨entry, allocated, alloc, run₁⟩ := Exec.bind_eq_ok.mp run
  obtain ⟨contents, _, entryHere, _, run₂⟩ := load_bind_eq_ok.mp run₁
  obtain ⟨_, run₃⟩ := store_bind_eq_ok.mp run₂
  obtain ⟨_, _, nullHere, _, _⟩ := load_bind_eq_ok.mp run₃
  have placed := kmalloc_used inv (by decide) (by decide) alloc (by rw [entryHere]; rfl)
  rw [Kernel.setObj_objs_of_ne _ _ placed.notNull.symm, placed.invariant.null] at nullHere
  cases nullHere

/-- **`paging_new_4gb`.** A completed call made an identity map in fresh memory. -/
theorem pagingNew4gb_spec (inv : KernelInvariant region live kernel) {chunk : Nat}
    {next : Kernel} (run : (pagingNew4gb flags).run kernel = .ok (chunk, next)) :
    ∃ live' tables, tables.chunk = chunk ∧ chunk ≠ 0 ∧
      Extended region live live' kernel next tables.owns ∧
      PageMap tables flags (identityPages flags) next := by
  obtain ⟨directory, first, allocDirectory, run₁⟩ := Exec.bind_eq_ok.mp run
  obtain ⟨_, filled, loop, run₂⟩ := Exec.bind_eq_ok.mp run₁
  obtain ⟨_, last, allocChunk, run₃⟩ := Exec.bind_eq_ok.mp run₂
  obtain ⟨chunkLive, done⟩ := store_bind_eq_ok.mp run₃
  cases done
  rcases kmalloc_positive inv (by decide) (by decide) allocDirectory with
    ⟨rfl, rfl⟩ | placed
  · exact (pagingNew4gbLoop_null inv loop).elim
  have start : TablesMade ⟨0, directory, fun _ => 0⟩ flags 0 first := by
    refine ⟨⟨_, placed.present, ?_⟩, ?_, ?_, ?_, ?_, ?_⟩ <;> intro j none <;> omega
  obtain ⟨live', tables, same, extended, made⟩ := pagingNew4gbLoop_spec
    pagingTotalEntriesPerTable 0 _ first ⟨0, directory, fun _ => 0⟩ (by omega)
    (((Extended.refl inv).placed placed).congr (by
      intro ptr
      unfold PageTables.ownsBelow
      simp only [Nat.not_lt_zero, false_and, exists_false, or_false])) start loop
  have placedChunk := kmalloc_used extended.invariant (by decide) (by decide) allocChunk chunkLive
  have apart : ∀ ptr, tables.ownsBelow pagingTotalEntriesPerTable ptr →
      ptr ≠ chunk ∧ last.objs ptr = filled.objs ptr := by
    intro ptr own
    obtain ⟨allocation, member, rfl⟩ := extended.held ptr own
    exact ⟨placedChunk.fresh allocation member, placedChunk.kept allocation member⟩
  have keptObj : ∀ ptr, tables.ownsBelow pagingTotalEntriesPerTable ptr →
      (last.setObj chunk (some (.chunk directory))).objs ptr = filled.objs ptr := by
    intro ptr own
    rw [Kernel.setObj_objs_of_ne _ _ (apart ptr own).1, (apart ptr own).2]
  refine ⟨_, { tables with chunk := chunk }, rfl, placedChunk.notNull,
    ((extended.placed placedChunk).setObj (.inl rfl) (.chunk directory)).congr fun ptr => Iff.rfl,
    ?_⟩
  constructor
  · rw [Kernel.setObj_objs_self]
    exact congrArg (fun entry => some (Obj.chunk entry)) same.symm
  · rw [keptObj _ (.inl rfl)]
    exact made.directory
  · intro j inside
    rw [keptObj _ (.inr ⟨j, inside, rfl⟩)]
    exact made.table j inside
  · exact made.aligned
  · exact made.bounded
  · exact made.apart
  · exact made.notDirectory

end New

section Free

variable {region : KernelRegion} {live : List Allocation} {kernel : Kernel} {tables : PageTables}
  {flags : Nat} {pages : Nat → Nat}

theorem PageMap.chunk_ne_table (map : PageMap tables flags pages kernel) {i : Nat}
    (inside : i < pagingTotalEntriesPerTable) : tables.chunk ≠ tables.table i := by
  obtain ⟨entries, here, _⟩ := map.table i inside
  exact Kernel.ne_of_objs map.chunk here nofun

/-- The loop frees the tables. -/
theorem pagingFree4gbLoop_spec (small : flags < pagingPageSize)
    (map : PageMap tables flags pages kernel) :
    ∀ (count i : Nat) (live' : List Allocation) (middle : Kernel),
      i + count = pagingTotalEntriesPerTable →
      Released region live live' kernel middle (fun ptr => ∃ j < i, ptr = tables.table j) →
      ∃ live'' next, (pagingFree4gbLoop tables.chunk count i).run middle = .ok ((), next) ∧
        Released region live live'' kernel next
          fun ptr => ∃ j < pagingTotalEntriesPerTable, ptr = tables.table j := by
  intro count
  induction count with
  | zero =>
      rintro i live' middle rfl released
      exact ⟨live', middle, rfl, released⟩
  | succ count ih =>
      intro i live' middle reached released
      have inside : i < pagingTotalEntriesPerTable := by omega
      have chunkHere : middle.objs tables.chunk = some (.chunk tables.directory) := by
        rw [released.kept, map.chunk]
        rintro ⟨j, before, same⟩
        exact map.chunk_ne_table (before.trans inside) same
      obtain ⟨entries, present, values⟩ := map.directory
      have directoryHere : middle.objs tables.directory = some (.dwords entries) := by
        rw [released.kept, present]
        rintro ⟨j, before, same⟩
        exact map.notDirectory j (before.trans inside) same.symm
      have tableHere : (middle.objs (tables.table i)).isSome := by
        obtain ⟨contents, here, _⟩ := map.table i inside
        rw [released.kept, here]
        · rfl
        · rintro ⟨j, before, same⟩
          exact Nat.ne_of_gt before (map.apart i inside j (before.trans inside) same)
      obtain ⟨_, last, freed, released'⟩ := released.free tableHere
      obtain ⟨live'', next, run, done⟩ := ih (i + 1) _ last (by omega) (released'.congr (by
        intro ptr
        constructor
        · rintro (rfl | ⟨j, before, rfl⟩)
          · exact ⟨i, Nat.lt_succ_self i, rfl⟩
          · exact ⟨j, Nat.lt_succ_of_lt before, rfl⟩
        · rintro ⟨j, before, rfl⟩
          rcases Nat.lt_succ_iff_lt_or_eq.mp before with earlier | rfl
          · exact .inr ⟨j, earlier, rfl⟩
          · exact .inl rfl))
      refine ⟨live'', next, ?_, done⟩
      have loadedChunk : (load Obj.chunk? tables.chunk).run middle = .ok (_, middle) :=
        load_of_obj chunkHere rfl
      have loadedDirectory : (load Obj.dwords? tables.directory).run middle = .ok (_, middle) :=
        load_of_obj directoryHere rfl
      rw [pagingFree4gbLoop, Exec.bind_of_ok loadedChunk, Exec.bind_of_ok loadedDirectory,
        values i inside, entryAddress_directory (map.aligned i inside) small
          (map.bounded i inside), Exec.bind_of_ok freed, run]

/-- **`paging_free_4gb`.** It frees the objects of the page directory. -/
theorem pagingFree4gb_spec (inv : KernelInvariant region live kernel)
    (small : flags < pagingPageSize) (map : PageMap tables flags pages kernel) :
    ∃ live' next, (pagingFree4gb tables.chunk).run kernel = .ok ((), next) ∧
      Released region live live' kernel next tables.owns := by
  obtain ⟨live₁, freed, loop, released⟩ := pagingFree4gbLoop_spec small map
    pagingTotalEntriesPerTable 0 live kernel (by omega) ((Released.refl inv).congr (by
      intro ptr
      simp only [Nat.not_lt_zero, false_and, exists_false]))
  obtain ⟨entries, present, _⟩ := map.directory
  have apart : tables.chunk ≠ tables.directory := Kernel.ne_of_objs map.chunk present nofun
  have chunkHere : freed.objs tables.chunk = some (.chunk tables.directory) := by
    rw [released.kept, map.chunk]
    rintro ⟨j, inside, same⟩
    exact map.chunk_ne_table inside same
  have directoryStill : (freed.objs tables.directory).isSome := by
    rw [released.kept, present]
    · rfl
    · rintro ⟨j, inside, same⟩
      exact map.notDirectory j inside same.symm
  obtain ⟨live₂, unmapped, freeDirectory, released₂⟩ := released.free directoryStill
  have chunkStill : (unmapped.objs tables.chunk).isSome := by
    rw [released₂.kept, map.chunk]
    · rfl
    · rintro (same | ⟨j, inside, same⟩)
      · exact apart same
      · exact map.chunk_ne_table inside same
  obtain ⟨live₃, next, freeChunk, released₃⟩ := released₂.free chunkStill
  have loaded : (load Obj.chunk? tables.chunk).run freed = .ok (_, freed) :=
    load_of_obj chunkHere rfl
  refine ⟨live₃, next, ?_, released₃⟩
  rw [pagingFree4gb, Exec.bind_of_ok loop, Exec.bind_of_ok loaded, Exec.bind_of_ok freeDirectory,
    freeChunk]

end Free

section Progress

variable {region : KernelRegion} {flags : Nat} {supplies : List Allocation → Kernel → Nat → Prop}

/-- The number of blocks of a page directory. -/
def pagingBlocks : Nat := 1 + pagingTotalEntriesPerTable + 1

theorem blocksFor_table : blocksFor sizeofTable = 1 := by decide

/-- The loop completes while there is a block for each table. -/
theorem pagingNew4gbLoop_supplied (supply : Supply region supplies) {directory : Nat} :
    ∀ (count i left : Nat) (offset : Int) (live : List Allocation) (kernel : Kernel),
      supplies live kernel (left + count) →
      (∃ allocation ∈ live, allocation.ptr = directory) →
      (∃ entries, kernel.objs directory = some (.dwords entries)) →
      ∃ live' next, (pagingNew4gbLoop directory flags count i offset).run kernel =
          .ok ((), next) ∧ supplies live' next left := by
  intro count
  induction count with
  | zero =>
      intro i left offset live kernel supplied _ _
      exact ⟨live, kernel, rfl, supplied⟩
  | succ count ih =>
      rintro i left offset live kernel supplied ⟨allocation, member, rfl⟩ ⟨entries, here⟩
      obtain ⟨entry, allocated, alloc, placed, supplied'⟩ :=
        supply.block supplied blocksFor_table (.dwords fun _ => 0)
      have entryLive : (allocated.objs entry).isSome := by
        rw [placed.present]
        rfl
      have loaded : (load Obj.dwords? entry).run allocated = .ok (_, allocated) :=
        load_of_obj placed.present rfl
      have stored : ∀ contents, ((allocated.setObj entry contents).objs allocation.ptr) =
          some (.dwords entries) := by
        intro contents
        rw [Kernel.setObj_objs_of_ne _ _ (placed.fresh allocation member),
          placed.kept allocation member, here]
      have directoryLive : ∀ contents,
          ((allocated.setObj entry contents).objs allocation.ptr).isSome := by
        intro contents
        rw [stored]
        rfl
      have reloaded : ∀ contents, (load Obj.dwords? allocation.ptr).run
          (allocated.setObj entry contents) = .ok (entries, _) :=
        fun contents => load_of_obj (stored contents) rfl
      have filled := supply.writes supplied' (@WritesOnly.setObj (fun _ => True) _ _ trivial
        entryLive (.dwords (fillTable (fun _ => 0) offset flags)))
      have linked := supply.writes filled (@WritesOnly.setObj (fun _ => True) _ _ trivial
        (directoryLive _) (.dwords (Function.update entries i
          (entry ||| flags ||| pagingIsWriteable))))
      obtain ⟨live', next, run, last⟩ := ih (i + 1) left
        (i32 (offset + pagingTotalEntriesPerTable * pagingPageSize)) _ _ linked
        ⟨allocation, List.mem_cons_of_mem _ member, rfl⟩ ⟨_, Kernel.setObj_objs_self ..⟩
      refine ⟨live', next, ?_, last⟩
      rw [pagingNew4gbLoop, kzalloc, Exec.bind_of_ok alloc, Exec.bind_of_ok loaded,
        Exec.bind_of_ok (store_of_live entryLive), Exec.bind_of_ok (reloaded _),
        Exec.bind_of_ok (store_of_live (directoryLive _))]
      exact run

/-- **Blocks for a page directory.** -/
theorem pagingNew4gb_supplied (supply : Supply region supplies) {live : List Allocation}
    {kernel : Kernel} {left : Nat} (supplied : supplies live kernel (left + pagingBlocks)) :
    ∃ chunk live' next, (pagingNew4gb flags).run kernel = .ok (chunk, next) ∧
      supplies live' next left := by
  have total : left + pagingBlocks = left + 1 + pagingTotalEntriesPerTable + 1 := by
    unfold pagingBlocks
    omega
  rw [total] at supplied
  obtain ⟨directory, first, allocDirectory, placed₁, supplied₁⟩ :=
    supply.block supplied blocksFor_table (.dwords fun _ => 0)
  obtain ⟨live', filled, loop, supplied₂⟩ := @pagingNew4gbLoop_supplied _ flags _ supply _
    pagingTotalEntriesPerTable 0 (left + 1) 0 _ first supplied₁
    ⟨_, List.mem_cons_self, rfl⟩ ⟨_, placed₁.present⟩
  obtain ⟨chunk, last, allocChunk, placed₃, supplied₃⟩ := supply.block supplied₂
    (show blocksFor sizeofPaging4gbChunk = 1 by decide) (.chunk 0)
  have chunkLive := Option.isSome_iff_exists.mpr ⟨_, placed₃.present⟩
  refine ⟨chunk, _, last.setObj chunk (some (.chunk directory)), ?_,
    supply.writes supplied₃ (@WritesOnly.setObj (fun _ => True) _ _ trivial chunkLive _)⟩
  rw [pagingNew4gb, kzalloc, Exec.bind_of_ok allocDirectory, Exec.bind_of_ok loop, kzalloc,
    Exec.bind_of_ok allocChunk, Exec.bind_of_ok (store_of_live chunkLive), Exec.run_pure]

/-- **Room for a page directory.** -/
theorem pagingNew4gb_packed {live : List Allocation} {kernel : Kernel} {used : Nat}
    (packed : Packed region live kernel used)
    (room : (used + pagingBlocks) * peachosHeapBlockSize ≤ region.bytes) :
    ∃ chunk live' next, (pagingNew4gb flags).run kernel = .ok (chunk, next) ∧
      Packed region live' next (used + pagingBlocks) := by
  obtain ⟨chunk, live', next, run, used', sum, packed'⟩ := @pagingNew4gb_supplied region flags _
    (packedSupply room) live kernel 0 ⟨used, by omega, packed⟩
  exact ⟨chunk, live', next, run, sum ▸ packed'⟩

/-- A completed loop took a block for each table. -/
theorem pagingNew4gbLoop_blocks {directory : Nat} {next : Kernel} :
    ∀ (count i : Nat) (offset : Int) (live : List Allocation) (kernel : Kernel),
      KernelInvariant region live kernel →
      (pagingNew4gbLoop directory flags count i offset).run kernel = .ok ((), next) →
      ∃ live', KernelInvariant region live' next ∧
        next.heap.freeBlocks + count = kernel.heap.freeBlocks := by
  intro count
  induction count with
  | zero =>
      intro i offset live kernel inv run
      cases run
      exact ⟨live, inv, rfl⟩
  | succ count ih =>
      intro i offset live kernel inv run
      obtain ⟨entry, allocated, alloc, run₁⟩ := Exec.bind_eq_ok.mp run
      obtain ⟨_, _, entryHere, _, run₂⟩ := load_bind_eq_ok.mp run₁
      have present := Option.isSome_iff_exists.mpr ⟨_, entryHere⟩
      obtain ⟨_, run₃⟩ := store_bind_eq_ok.mp run₂
      obtain ⟨_, entries, directoryHere, _, run₄⟩ := load_bind_eq_ok.mp run₃
      obtain ⟨directoryPresent, run₅⟩ := store_bind_eq_ok.mp run₄
      have placed := kmalloc_used inv (by decide) (by decide) alloc present
      obtain ⟨live', inv', count'⟩ := ih _ _ _ _
        ((placed.invariant.setObj present _).setObj directoryPresent _) run₅
      refine ⟨live', inv', ?_⟩
      have taken := placed.freeBlocks inv
      rw [blocksFor_table] at taken
      change next.heap.freeBlocks + count = allocated.heap.freeBlocks at count'
      omega

/-- A completed `paging_new_4gb` found its blocks free. -/
theorem pagingNew4gb_blocks {live : List Allocation} {kernel next : Kernel} {chunk : Nat}
    (inv : KernelInvariant region live kernel)
    (run : (pagingNew4gb flags).run kernel = .ok (chunk, next)) :
    pagingBlocks ≤ kernel.heap.freeBlocks := by
  obtain ⟨directory, first, allocDirectory, run₁⟩ := Exec.bind_eq_ok.mp run
  obtain ⟨_, filled, loop, run₂⟩ := Exec.bind_eq_ok.mp run₁
  obtain ⟨_, last, allocChunk, run₃⟩ := Exec.bind_eq_ok.mp run₂
  obtain ⟨chunkLive, _⟩ := store_bind_eq_ok.mp run₃
  rcases kmalloc_positive inv (by decide) (by decide) allocDirectory with
    ⟨rfl, rfl⟩ | placed
  · exact (pagingNew4gbLoop_null inv loop).elim
  obtain ⟨live', inv', tables⟩ := pagingNew4gbLoop_blocks _ _ _ _ _ placed.invariant loop
  have placedChunk := kmalloc_used inv' (by decide) (by decide) allocChunk chunkLive
  have before := placed.freeBlocks inv
  have after := placedChunk.freeBlocks inv'
  rw [show blocksFor sizeofPaging4gbChunk = 1 by decide] at after
  rw [blocksFor_table] at before
  unfold pagingBlocks
  omega

end Progress

end Peachos
