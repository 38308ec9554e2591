import Peachos.Fs.DirectoryItems

/-! # Looking a name up in a directory

The loop of `fat16_find_item_in_directory` goes over all entries: it makes an item for each one
whose name matches, and returns the last.
-/

namespace Peachos

open CInt

/-- The name of an entry, as the code prints it. -/
def itemName (raw : List UInt8) : List UInt8 :=
  fat16GetFullRelativeFilename (FatDirectoryItem.decode raw)

/-- The code compares the name of the entry as equal. -/
def Named (raw name : List UInt8) : Prop := istrncmp (itemName raw) name peachosMaxPath = 0

instance (raw name : List UInt8) : Decidable (Named raw name) :=
  inferInstanceAs (Decidable (_ = _))

/-- The bytes of entry `i` of a buffer. -/
def itemBytes (contents : List UInt8) (i : Nat) : List UInt8 :=
  (contents.drop (sizeofFatDirectoryItem * i)).take sizeofFatDirectoryItem

theorem length_itemBytes {contents : List UInt8} {i : Nat}
    (inside : sizeofFatDirectoryItem * (i + 1) ≤ contents.length) :
    (itemBytes contents i).length = sizeofFatDirectoryItem := by
  rw [itemBytes, List.length_take, List.length_drop]
  rw [Nat.mul_add] at inside
  omega

section Loop

variable {region : KernelRegion} {live : List Allocation} {kernel next : Kernel}
  {volume : FatPrivate} {read : StreamRead} {directory : FatDirectory}
  {contents name : List UInt8}

theorem loadDirectoryItem_run (buffer : kernel.objs directory.item = some (.bytes contents))
    {i : Nat} (inside : sizeofFatDirectoryItem * (i + 1) ≤ contents.length) :
    (loadDirectoryItem directory.item i).run kernel = .ok (itemBytes contents i, kernel) := by
  have loaded : (load Obj.bytes? directory.item).run kernel = .ok (contents, kernel) :=
    load_of_obj buffer rfl
  rw [loadDirectoryItem, Exec.bind_of_ok loaded, if_pos inside, Exec.run_pure, itemBytes]

/-- One turn. -/
theorem fat16FindItemLoop_step (buffer : kernel.objs directory.item = some (.bytes contents))
    {count i : Nat} (inside : sizeofFatDirectoryItem * (i + 1) ≤ contents.length) (fItem : Nat) :
    (fat16FindItemLoop read directory name (count + 1) i fItem).run kernel =
      if Named (itemBytes contents i) name then
        ((do
          let fItem ← fat16NewFatItemForDirectoryItem read (itemBytes contents i)
          fat16FindItemLoop read directory name count (i + 1) fItem) : K Nat).run kernel
      else (fat16FindItemLoop read directory name count (i + 1) fItem).run kernel := by
  rw [fat16FindItemLoop, Exec.bind_of_ok (loadDirectoryItem_run buffer inside)]
  by_cases named : Named (itemBytes contents i) name
  · rw [if_pos named]
    exact congrArg (Exec.run · kernel) (if_pos named)
  · rw [if_neg named]
    exact congrArg (Exec.run · kernel) (if_neg named)

/-- Entries with other names change nothing. -/
theorem fat16FindItemLoop_none (buffer : kernel.objs directory.item = some (.bytes contents))
    (fItem : Nat) : ∀ count i, sizeofFatDirectoryItem * (i + count) ≤ contents.length →
      (∀ j, i ≤ j → j < i + count → ¬ Named (itemBytes contents j) name) →
      (fat16FindItemLoop read directory name count i fItem).run kernel =
        .ok (fItem, kernel) := by
  intro count
  induction count with
  | zero => exact fun _ _ _ => rfl
  | succ count ih =>
      intro i inside others
      have here : sizeofFatDirectoryItem * (i + 1) ≤ contents.length :=
        (Nat.mul_le_mul_left _ (by omega)).trans inside
      rw [fat16FindItemLoop_step buffer here, if_neg (others i le_rfl (by omega))]
      exact ih (i + 1) (by rw [Nat.add_right_comm]; exact inside) fun j after before =>
        others j (by omega) (by omega)

/-- The loop over the first entries, and then over the others. -/
theorem fat16FindItemLoop_append (rest : Nat) : ∀ (count i fItem : Nat) (kernel : Kernel),
    (fat16FindItemLoop read directory name (count + rest) i fItem).run kernel =
      (fat16FindItemLoop read directory name count i fItem >>= fun fItem =>
        fat16FindItemLoop read directory name rest (i + count) fItem).run kernel := by
  intro count
  induction count with
  | zero =>
      intro i fItem kernel
      rw [Nat.zero_add, Nat.add_zero, fat16FindItemLoop, Exec.bind_of_ok (Exec.run_pure _ _)]
  | succ count ih =>
      intro i fItem kernel
      rw [Nat.add_right_comm, fat16FindItemLoop, fat16FindItemLoop, Exec.bind_assoc]
      refine Exec.bind_congr fun raw middle _ => ?_
      rw [show i + (count + 1) = i + 1 + count by omega]
      dsimp only
      split
      · rw [Exec.bind_assoc]
        exact Exec.bind_congr fun made after _ => ih (i + 1) made after
      · exact ih (i + 1) fItem middle

/-- **A completed search.** Either no name matches and nothing changes, or the last entry whose
name matches has its item; the blocks in `all` were allocated. -/
theorem fat16FindItemLoop_completed (reads : ReadsStreams read) : ∀ (count i fItem : Nat)
    (live : List Allocation) (kernel : Kernel), KernelInvariant region live kernel →
    VolumeLive live volume kernel → kernel.objs directory.item = some (.bytes contents) →
    (∃ allocation ∈ live, allocation.ptr = directory.item) → ∀ {item : Nat},
    (fat16FindItemLoop read directory name count i fItem).run kernel = .ok (item, next) →
    item = fItem ∧ next = kernel ∨ ∃ k live' all owned, i ≤ k ∧
      sizeofFatDirectoryItem * (k + 1) ≤ contents.length ∧ Named (itemBytes contents k) name ∧
      Grown region live live' kernel next all ∧
      ItemMade live' next (itemBytes contents k) item owned ∧ ∀ ptr, owned ptr → all ptr := by
  intro count
  induction count with
  | zero =>
      intro i fItem live kernel _ _ _ _ item run
      cases run
      exact .inl ⟨rfl, rfl⟩
  | succ count ih =>
      intro i fItem live kernel inv mounted buffer held item run
      obtain ⟨raw, middle, loaded, rest⟩ := Exec.bind_eq_ok.mp run
      obtain ⟨found, bytes, present, typed, checked⟩ := load_bind_eq_ok.mp loaded
      rw [buffer] at present
      cases present
      cases typed
      by_cases inside : sizeofFatDirectoryItem * (i + 1) ≤ contents.length
      · clear rest loaded checked
        rw [fat16FindItemLoop_step buffer inside] at run
        by_cases named : Named (itemBytes contents i) name
        · rw [if_pos named] at run
          obtain ⟨made, after, making, rest⟩ := Exec.bind_eq_ok.mp run
          obtain ⟨live', owned, grown, item'⟩ := fat16NewFatItemForDirectoryItem_completed reads inv
            mounted (length_itemBytes inside) making
          rcases ih (i + 1) made live' after grown.invariant (mounted.grown grown)
            ((grown.keeps held).obj buffer rfl) (grown.heldStill held) rest with
            ⟨rfl, rfl⟩ | ⟨k, live'', all, owned', later, inside', named', grown', item'', within⟩
          · exact .inr ⟨i, live', owned, owned, le_rfl, inside, named, grown, item', fun _ => id⟩
          · exact .inr ⟨k, live'', _, owned', by omega, inside', named', grown.trans grown', item'',
              fun ptr own => .inr (within ptr own)⟩
        · rw [if_neg named] at run
          rcases ih (i + 1) fItem live kernel inv mounted buffer held run with
            same | ⟨k, live'', all, owned', later, rest⟩
          · exact .inl same
          · exact .inr ⟨k, live'', all, owned', by omega, rest⟩
      · rw [if_neg inside, Exec.run_fault] at checked
        cases checked

/-- **The last match.** The search returns the item it makes for the last entry whose name
matches, also when making it fails. -/
theorem fat16FindItemLoop_last (reads : ReadsStreams read)
    (inv : KernelInvariant region live kernel) (mounted : VolumeLive live volume kernel)
    (buffer : kernel.objs directory.item = some (.bytes contents))
    (held : ∃ allocation ∈ live, allocation.ptr = directory.item) {k rest : Nat}
    (inside : sizeofFatDirectoryItem * (k + (rest + 1)) ≤ contents.length)
    (named : Named (itemBytes contents k) name)
    (others : ∀ j, k < j → j < k + (rest + 1) → ¬ Named (itemBytes contents j) name) :
    (fat16FindItemLoop read directory name (k + (rest + 1)) 0 0).run kernel =
      (fat16FindItemLoop read directory name k 0 0 >>= fun _ =>
        fat16NewFatItemForDirectoryItem read (itemBytes contents k)).run kernel := by
  have here : sizeofFatDirectoryItem * (k + 1) ≤ contents.length :=
    (Nat.mul_le_mul_left _ (by omega)).trans inside
  rw [fat16FindItemLoop_append, Nat.zero_add]
  refine Exec.bind_congr fun fItem middle before => ?_
  obtain ⟨live', inv', mounted', buffer', held'⟩ : ∃ live', KernelInvariant region live' middle ∧
      VolumeLive live' volume middle ∧ middle.objs directory.item = some (.bytes contents) ∧
      ∃ allocation ∈ live', allocation.ptr = directory.item := by
    rcases fat16FindItemLoop_completed reads k 0 0 live kernel inv mounted buffer held before with
      ⟨_, rfl⟩ | ⟨_, live', _, _, _, _, _, grown, _, _⟩
    · exact ⟨live, inv, mounted, buffer, held⟩
    · exact ⟨live', grown.invariant, mounted.grown grown, (grown.keeps held).obj buffer rfl,
        grown.heldStill held⟩
  rw [fat16FindItemLoop_step buffer' here, if_pos named]
  cases made : (fat16NewFatItemForDirectoryItem read (itemBytes contents k)).run middle with
  | error reason => exact Exec.bind_of_error made
  | ok result =>
      obtain ⟨_, _, grown, _⟩ := fat16NewFatItemForDirectoryItem_completed reads inv' mounted'
        (length_itemBytes here) made
      refine (Exec.bind_of_ok made).trans ?_
      exact fat16FindItemLoop_none ((grown.keeps held').obj buffer' rfl) result.1 rest (k + 1)
        (by rw [Nat.add_assoc, Nat.add_comm 1]; exact inside) fun j after before =>
          others j (by omega) (by omega)

end Loop

end Peachos
