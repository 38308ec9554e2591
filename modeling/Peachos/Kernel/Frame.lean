import Peachos.Kernel.Alloc

/-! # What a part of the kernel owns

Each part of the kernel works on objects of its own. `WritesOnly`, `Extended` and `Released` say
that a program wrote, allocated or freed only such objects, and `Owned` that several parts hold
live objects and share none.
-/

namespace Peachos

/-- Only objects in `owned` were written: none was allocated or freed. -/
structure WritesOnly (owned : Nat → Prop) (kernel next : Kernel) : Prop where
  heap : next.heap = kernel.heap
  kept : ∀ ptr, ¬ owned ptr → next.objs ptr = kernel.objs ptr
  live : ∀ ptr, (next.objs ptr).isSome = (kernel.objs ptr).isSome
  globals : kernel.SameGlobals next

namespace WritesOnly

variable {owned : Nat → Prop} {kernel middle next : Kernel}

theorem refl (kernel : Kernel) : WritesOnly owned kernel kernel :=
  ⟨rfl, fun _ _ => rfl, fun _ => rfl, rfl⟩

theorem trans (first : WritesOnly owned kernel middle) (second : WritesOnly owned middle next) :
    WritesOnly owned kernel next where
  heap := second.heap.trans first.heap
  kept := fun ptr unowned => (second.kept ptr unowned).trans (first.kept ptr unowned)
  live := fun ptr => (second.live ptr).trans (first.live ptr)
  globals := first.globals.trans second.globals

theorem setObj {ptr : Nat} (own : owned ptr) (present : (kernel.objs ptr).isSome)
    (contents : Obj) : WritesOnly owned kernel (kernel.setObj ptr (some contents)) where
  heap := rfl
  kept := fun other unowned =>
    Kernel.setObj_objs_of_ne _ _ fun same => unowned (by rw [same]; exact own)
  live := by
    intro other
    by_cases here : other = ptr
    · rw [here, Kernel.setObj_objs_self, present]
      rfl
    · rw [Kernel.setObj_objs_of_ne _ _ here]
  globals := rfl

theorem mono (only : WritesOnly owned kernel next) {owned' : Nat → Prop}
    (more : ∀ ptr, owned ptr → owned' ptr) : WritesOnly owned' kernel next :=
  ⟨only.heap, fun ptr unowned => only.kept ptr fun own => unowned (more ptr own), only.live,
    only.globals⟩

theorem invariant (only : WritesOnly owned kernel next) {region : KernelRegion}
    {live : List Allocation} (inv : KernelInvariant region live kernel) :
    KernelInvariant region live next := by
  refine ⟨by rw [only.heap]; exact inv.heap, fun allocation member => ?_, fun ptr present => ?_⟩
  · rw [only.live]
    exact inv.held allocation member
  · rw [only.live] at present
    rw [only.heap]
    exact inv.owned ptr present

end WritesOnly

/-- Writing a live object keeps the heap and its objects in step. -/
theorem KernelInvariant.setObj {region : KernelRegion} {live : List Allocation} {kernel : Kernel}
    (inv : KernelInvariant region live kernel) {ptr : Nat} (present : (kernel.objs ptr).isSome)
    (contents : Obj) : KernelInvariant region live (kernel.setObj ptr (some contents)) :=
  (@WritesOnly.setObj (fun other => other = ptr) kernel ptr rfl present contents).invariant inv

/-- From `kernel` with the allocations `live` to `next` with `live'`, only objects in `owned`
were allocated or written: they are live in `next` and were not in `kernel`. -/
structure Extended (region : KernelRegion) (live live' : List Allocation) (kernel next : Kernel)
    (owned : Nat → Prop) : Prop where
  invariant : KernelInvariant region live' next
  grown : live ⊆ live'
  fresh : ∀ allocation ∈ live, ¬ owned allocation.ptr
  held : ∀ ptr, owned ptr → ∃ allocation ∈ live', allocation.ptr = ptr
  only : ∀ allocation ∈ live', allocation ∈ live ∨ owned allocation.ptr
  kept : ∀ allocation ∈ live, next.objs allocation.ptr = kernel.objs allocation.ptr
  globals : kernel.SameGlobals next

namespace Extended

variable {region : KernelRegion} {live live' : List Allocation} {kernel next : Kernel}
  {owned : Nat → Prop}

theorem refl (inv : KernelInvariant region live kernel) :
    Extended region live live kernel kernel fun _ => False :=
  ⟨inv, List.Subset.refl _, fun _ _ => id, fun _ none => none.elim, fun _ member => .inl member,
    fun _ _ => rfl, rfl⟩

/-- One more allocation. -/
theorem placed (extended : Extended region live live' kernel next owned) {size ptr : Nat}
    {contents : Obj} {last : Kernel}
    (placed : Placed region live' (⟨ptr, size⟩ :: live') next contents ptr last) :
    Extended region live (⟨ptr, size⟩ :: live') kernel last fun other => other = ptr ∨ owned other
    where
  invariant := placed.invariant
  grown := fun _ member => List.mem_cons_of_mem _ (extended.grown member)
  fresh := by
    rintro allocation member (same | before)
    · exact placed.fresh allocation (extended.grown member) same
    · exact extended.fresh allocation member before
  held := by
    rintro other (rfl | before)
    · exact ⟨_, List.mem_cons_self, rfl⟩
    · obtain ⟨allocation, member, same⟩ := extended.held other before
      exact ⟨allocation, List.mem_cons_of_mem _ member, same⟩
  only := by
    intro allocation member
    rcases List.mem_cons.mp member with rfl | before
    · exact .inr (.inl rfl)
    · exact (extended.only allocation before).imp_right .inr
  kept := by
    intro allocation member
    rw [placed.kept allocation (extended.grown member), extended.kept allocation member]
  globals := extended.globals.trans placed.globals

/-- An object that takes no block. -/
theorem placedEmpty (extended : Extended region live live' kernel next owned) {ptr : Nat}
    {contents : Obj} {last : Kernel} (placed : Placed region live' live' next contents ptr last) :
    Extended region live live' kernel last owned where
  invariant := placed.invariant
  grown := extended.grown
  fresh := extended.fresh
  held := extended.held
  only := extended.only
  kept := fun allocation member =>
    (placed.kept allocation (extended.grown member)).trans (extended.kept allocation member)
  globals := extended.globals.trans placed.globals

/-- Writing an allocated object. -/
theorem setObj (extended : Extended region live live' kernel next owned) {ptr : Nat}
    (own : owned ptr) (contents : Obj) :
    Extended region live live' kernel (next.setObj ptr (some contents)) owned where
  invariant := by
    obtain ⟨allocation, member, rfl⟩ := extended.held ptr own
    have present := extended.invariant.held allocation member
    exact extended.invariant.setObj present contents
  grown := extended.grown
  fresh := extended.fresh
  held := extended.held
  only := extended.only
  kept := by
    intro allocation member
    have apart : allocation.ptr ≠ ptr := fun same => extended.fresh allocation member (same ▸ own)
    rw [Kernel.setObj_objs_of_ne _ _ apart, extended.kept allocation member]
  globals := extended.globals.trans rfl

/-- An allocation that is freed at once. -/
theorem cancel (extended : Extended region live live' kernel next owned) {size ptr : Nat}
    {contents : Obj} {last : Kernel}
    (placed : Placed region live' (⟨ptr, size⟩ :: live') next contents ptr last) :
    ∃ final, (kfree ptr).run last = .ok ((), final) ∧
      Extended region live live' kernel final owned ∧
      ∀ allocation ∈ live', final.objs allocation.ptr = next.objs allocation.ptr := by
  obtain ⟨heap, run, inv⟩ := kfree_spec placed.invariant (by rw [placed.present]; rfl)
  have same : (⟨ptr, size⟩ :: live').filter (fun allocation => allocation.ptr ≠ ptr) = live' := by
    rw [List.filter_cons_of_neg (by simp only [ne_eq, not_true, decide_false, Bool.false_eq_true,
      not_false_eq_true])]
    exact List.filter_eq_self.mpr fun allocation member =>
      decide_eq_true (placed.fresh allocation member)
  rw [same] at inv
  have kept : ∀ allocation ∈ live', ({ last with heap := heap }.setObj ptr none).objs
      allocation.ptr = next.objs allocation.ptr := by
    intro allocation member
    rw [Kernel.setObj_objs_of_ne _ _ (placed.fresh allocation member)]
    exact placed.kept allocation member
  refine ⟨_, run, ⟨inv, extended.grown, extended.fresh, extended.held, extended.only, ?_, ?_⟩,
    kept⟩
  · intro allocation member
    rw [kept allocation (extended.grown member), extended.kept allocation member]
  · exact (extended.globals.trans placed.globals).trans rfl

theorem congr (extended : Extended region live live' kernel next owned) {owned' : Nat → Prop}
    (same : ∀ ptr, owned ptr ↔ owned' ptr) :
    Extended region live live' kernel next owned' := by
  rw [← show owned = owned' from funext fun ptr => propext (same ptr)]
  exact extended

/-- Two extensions in a row. -/
theorem trans (first : Extended region live live' kernel next owned) {live'' : List Allocation}
    {last : Kernel} {owned' : Nat → Prop}
    (second : Extended region live' live'' next last owned') :
    Extended region live live'' kernel last fun ptr => owned ptr ∨ owned' ptr where
  invariant := second.invariant
  grown := List.Subset.trans first.grown second.grown
  fresh := by
    rintro allocation member (before | after)
    · exact first.fresh allocation member before
    · exact second.fresh allocation (first.grown member) after
  held := by
    rintro ptr (before | after)
    · obtain ⟨allocation, member, same⟩ := first.held ptr before
      exact ⟨allocation, second.grown member, same⟩
    · exact second.held ptr after
  only := by
    intro allocation member
    rcases second.only allocation member with before | own
    · exact (first.only allocation before).imp_right .inl
    · exact .inr (.inr own)
  kept := by
    intro allocation member
    rw [second.kept allocation (first.grown member), first.kept allocation member]
  globals := first.globals.trans second.globals

end Extended

/-- From `kernel` with the allocations `live` to `next` with `live'`, the objects in `freed`
were freed and no other object changed. -/
structure Released (region : KernelRegion) (live live' : List Allocation) (kernel next : Kernel)
    (freed : Nat → Prop) : Prop where
  invariant : KernelInvariant region live' next
  remaining : ∀ allocation, allocation ∈ live' ↔ allocation ∈ live ∧ ¬ freed allocation.ptr
  gone : ∀ ptr, freed ptr → next.objs ptr = none
  kept : ∀ ptr, ¬ freed ptr → next.objs ptr = kernel.objs ptr
  globals : kernel.SameGlobals next

namespace Released

variable {region : KernelRegion} {live live' : List Allocation} {kernel next : Kernel}
  {freed : Nat → Prop}

theorem refl (inv : KernelInvariant region live kernel) :
    Released region live live kernel kernel fun _ => False :=
  ⟨inv, fun _ => (and_iff_left not_false).symm, fun _ => False.elim, fun _ _ => rfl, rfl⟩

theorem congr (released : Released region live live' kernel next freed) {freed' : Nat → Prop}
    (same : ∀ ptr, freed ptr ↔ freed' ptr) :
    Released region live live' kernel next freed' := by
  rw [← show freed = freed' from funext fun ptr => propext (same ptr)]
  exact released

/-- One more `kfree`. -/
theorem free (released : Released region live live' kernel next freed) {ptr : Nat}
    (present : (next.objs ptr).isSome) :
    ∃ live'' last, (kfree ptr).run next = .ok ((), last) ∧
      Released region live live'' kernel last fun other => other = ptr ∨ freed other := by
  obtain ⟨heap, run, inv⟩ := kfree_spec released.invariant present
  refine ⟨_, _, run, inv, fun allocation => ?_, ?_, ?_, released.globals.trans rfl⟩
  · rw [List.mem_filter, released.remaining, not_or, and_assoc]
    refine and_congr_right fun _ => ?_
    rw [decide_eq_true_iff, and_comm]
  · rintro other (rfl | before)
    · exact Kernel.setObj_objs_self ..
    · by_cases same : other = ptr
      · rw [same]
        exact Kernel.setObj_objs_self ..
      · rw [Kernel.setObj_objs_of_ne _ _ same]
        exact released.gone other before
  · intro other unfreed
    rw [not_or] at unfreed
    rw [Kernel.setObj_objs_of_ne _ _ unfreed.1]
    exact released.kept other unfreed.2

end Released

/-- Each record owns live allocations, and no two records own the same one. -/
structure Owned {α : Type} (owns : α → Nat → Prop) (live : List Allocation) (records : List α) :
    Prop where
  held : ∀ record ∈ records, ∀ ptr, owns record ptr → ∃ allocation ∈ live, allocation.ptr = ptr
  apart : records.Pairwise fun first second => ∀ ptr, owns first ptr → ¬ owns second ptr

namespace Owned

variable {α : Type} {owns : α → Nat → Prop} {region : KernelRegion} {live live' : List Allocation}
  {records : List α} {kernel next : Kernel}

theorem nil : Owned owns live ([] : List α) := ⟨nofun, .nil⟩

/-- A record with fresh objects. -/
theorem add (owned : Owned owns live records) {record : α} (grown : live ⊆ live')
    (fresh : ∀ allocation ∈ live, ¬ owns record allocation.ptr)
    (held : ∀ ptr, owns record ptr → ∃ allocation ∈ live', allocation.ptr = ptr) :
    Owned owns live' (record :: records) where
  held := by
    intro other member ptr own
    rcases List.mem_cons.mp member with rfl | old
    · exact held ptr own
    · obtain ⟨allocation, present, same⟩ := owned.held other old ptr own
      exact ⟨allocation, grown present, same⟩
  apart := by
    refine List.pairwise_cons.mpr ⟨fun other member ptr own own' => ?_, owned.apart⟩
    obtain ⟨allocation, present, rfl⟩ := owned.held other member ptr own'
    exact fresh allocation present own

theorem cons (owned : Owned owns live records) {record : α}
    (extended : Extended region live live' kernel next (owns record)) :
    Owned owns live' (record :: records) :=
  owned.add extended.grown extended.fresh extended.held

theorem perm (owned : Owned owns live records) {records' : List α}
    (same : records.Perm records') : Owned owns live records' where
  held := fun record member => owned.held record (same.mem_iff.mpr member)
  apart := (same.pairwise_iff fun apart ptr own own' => apart ptr own' own).mp owned.apart

/-- More allocations elsewhere. -/
theorem grow (owned : Owned owns live records) (grown : live ⊆ live') :
    Owned owns live' records where
  held := by
    intro record member ptr own
    obtain ⟨allocation, present, same⟩ := owned.held record member ptr own
    exact ⟨allocation, grown present, same⟩
  apart := owned.apart

/-- What one record owns is not owned by another one. -/
theorem not_owns (owned : Owned owns live records) {first second : α} (here : first ∈ records)
    (there : second ∈ records) (different : first ≠ second) {ptr : Nat} (own : owns first ptr) :
    ¬ owns second ptr := by
  have symmetric : Std.Symm fun first second : α => ∀ ptr, owns first ptr → ¬ owns second ptr :=
    ⟨fun _ _ apart ptr own own' => apart ptr own' own⟩
  exact owned.apart.forall here there different ptr own

/-- The objects of a record stay in an extension. -/
theorem kept (owned : Owned owns live records) {new : Nat → Prop}
    (extended : Extended region live live' kernel next new) {record : α}
    (member : record ∈ records) {ptr : Nat} (own : owns record ptr) :
    next.objs ptr = kernel.objs ptr := by
  obtain ⟨allocation, present, rfl⟩ := owned.held record member ptr own
  exact extended.kept allocation present

end Owned

end Peachos
