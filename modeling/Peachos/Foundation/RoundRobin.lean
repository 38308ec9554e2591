import Mathlib.Tactic

/-! # A cursor on a growing ring

A cursor advances over the positions of a ring, from the last one to the first one, and the ring
grows at its end. `visits_start_iff` says when the cursor comes back to the position where it
started, and `positions_filter` that the positions that were there at some time are visited in
their order from then on.
-/

namespace RoundRobin

inductive Event where
  | advance
  | grow
  deriving DecidableEq, Repr

structure Ring where
  size : Nat
  cursor : Nat

/-- The ring after an event. -/
def Ring.step (ring : Ring) : Event → Ring
  | .advance => { ring with cursor := if ring.cursor + 1 < ring.size then ring.cursor + 1 else 0 }
  | .grow => { ring with size := ring.size + 1 }

/-- The cursor advances to the position. -/
def Visits (position : Nat) : Ring → List Event → Prop
  | _, [] => False
  | ring, .grow :: events => Visits position (ring.step .grow) events
  | ring, .advance :: events =>
      (ring.step .advance).cursor = position ∨ Visits position (ring.step .advance) events

/-- The number of advances. -/
def advances (events : List Event) : Nat := events.count .advance

/-- The number of positions that are added. -/
def grows (events : List Event) : Nat := events.count .grow

@[simp] theorem advances_nil : advances [] = 0 := rfl

@[simp] theorem grows_nil : grows [] = 0 := rfl

@[simp] theorem advances_advance (events : List Event) :
    advances (.advance :: events) = advances events + 1 :=
  List.count_cons_self

@[simp] theorem advances_grow (events : List Event) :
    advances (.grow :: events) = advances events :=
  List.count_cons_of_ne (by decide)

@[simp] theorem grows_grow (events : List Event) : grows (.grow :: events) = grows events + 1 :=
  List.count_cons_self

@[simp] theorem grows_advance (events : List Event) : grows (.advance :: events) = grows events :=
  List.count_cons_of_ne (by decide)

@[simp] theorem advances_append (first second : List Event) :
    advances (first ++ second) = advances first + advances second :=
  List.count_append

/-- A position ahead of the cursor is reached after the advances in between. -/
theorem visits_ahead {position : Nat} {events : List Event} :
    ∀ {ring : Ring}, ring.cursor < position → position < ring.size →
      (Visits position ring events ↔ position ≤ ring.cursor + advances events) := by
  induction events with
  | nil =>
      intro ring ahead _
      exact iff_of_false id (by rw [advances_nil]; omega)
  | cons event events ih =>
      intro ring ahead inside
      cases event with
      | grow =>
          rw [Visits, @ih (ring.step .grow) ahead (Nat.lt_succ_of_lt inside), advances_grow]
          exact Iff.rfl
      | advance =>
          have step : (ring.step .advance).cursor = ring.cursor + 1 := if_pos (by omega)
          rw [Visits, step, advances_advance]
          by_cases here : ring.cursor + 1 = position
          · exact iff_of_true (.inl here) (by omega)
          · rw [or_iff_right here, @ih (ring.step .advance) (by rw [step]; omega) inside, step]
            omega

/-- A position that is not ahead of the cursor is reached after the cursor went past the end. -/
theorem visits_behind {position : Nat} {events : List Event} :
    ∀ {ring : Ring}, position ≤ ring.cursor → ring.cursor < ring.size →
      (Visits position ring events ↔ ∃ first second, events = first ++ second ∧
        ring.cursor + advances first = ring.size + grows first ∧ position ≤ advances second) := by
  induction events with
  | nil =>
      intro ring _ inside
      refine iff_of_false id ?_
      rintro ⟨first, second, split, wrapped, _⟩
      rw [(List.append_eq_nil_iff.mp split.symm).1, advances_nil, grows_nil] at wrapped
      omega
  | cons event events ih =>
      intro ring behind inside
      -- The first part is not empty: the cursor is inside the ring.
      have nonempty : (∃ first second, event :: events = first ++ second ∧
          ring.cursor + advances first = ring.size + grows first ∧ position ≤ advances second) ↔
          ∃ first second, events = first ++ second ∧
            ring.cursor + advances (event :: first) = ring.size + grows (event :: first) ∧
              position ≤ advances second := by
        constructor
        · rintro ⟨first, second, split, wrapped, enough⟩
          cases first with
          | nil =>
              rw [advances_nil, grows_nil] at wrapped
              omega
          | cons head first =>
              obtain ⟨rfl, rest⟩ := List.cons.inj split
              exact ⟨first, second, rest, wrapped, enough⟩
        · rintro ⟨first, second, rfl, wrapped, enough⟩
          exact ⟨event :: first, second, rfl, wrapped, enough⟩
      rw [nonempty]
      cases event with
      | grow =>
          rw [Visits, @ih (ring.step .grow) behind (Nat.lt_succ_of_lt inside)]
          simp only [Ring.step, advances_grow, grows_grow, Nat.add_assoc, Nat.add_comm 1]
      | advance =>
          simp only [advances_advance, grows_advance]
          by_cases last : ring.cursor + 1 < ring.size
          · have step : (ring.step .advance).cursor = ring.cursor + 1 := if_pos last
            rw [Visits, or_iff_right (by rw [step]; omega), @ih (ring.step .advance)
              (by rw [step]; omega) (by rw [step]; exact last), step]
            simp only [Ring.step, Nat.add_assoc, Nat.add_comm 1]
          · have step : (ring.step .advance).cursor = 0 := if_neg last
            rw [Visits, step]
            constructor
            · intro visited
              refine ⟨[], events, rfl, by rw [advances_nil, grows_nil]; omega, ?_⟩
              rcases visited with rfl | later
              · exact Nat.zero_le _
              · rcases Nat.eq_zero_or_pos position with rfl | positive
                · exact Nat.zero_le _
                · have enough := (@visits_ahead position events (ring.step .advance)
                    (by rw [step]; exact positive) (behind.trans_lt inside)).mp later
                  rwa [step, Nat.zero_add] at enough
            · rintro ⟨first, second, rfl, _, enough⟩
              rcases Nat.eq_zero_or_pos position with rfl | positive
              · exact .inl rfl
              · refine .inr ((@visits_ahead position _ (ring.step .advance)
                  (by rw [step]; exact positive) (behind.trans_lt inside)).mpr ?_)
                rw [step, Nat.zero_add, advances_append]
                omega

/-- **Coming back.** The cursor comes back to where it started exactly if it goes past the end
of the ring and then advances as far again. -/
theorem visits_start_iff {ring : Ring} (inside : ring.cursor < ring.size) {events : List Event} :
    Visits ring.cursor ring events ↔ ∃ first second, events = first ++ second ∧
      ring.cursor + advances first = ring.size + grows first ∧ ring.cursor ≤ advances second :=
  visits_behind le_rfl inside

section Rounds

/-- The positions that the cursor advances to. -/
def positions : Ring → List Event → List Nat
  | _, [] => []
  | ring, .grow :: events => positions (ring.step .grow) events
  | ring, .advance :: events =>
      (ring.step .advance).cursor :: positions (ring.step .advance) events

/-- The next `count` positions on a ring of a fixed size. -/
def cyclic (size : Nat) : (cursor count : Nat) → List Nat
  | _, 0 => []
  | cursor, count + 1 =>
      let following := if cursor + 1 < size then cursor + 1 else 0
      following :: cyclic size following count

@[simp] theorem cyclic_length (size : Nat) :
    ∀ cursor count, (cyclic size cursor count).length = count
  | _, 0 => rfl
  | _, count + 1 => congrArg (· + 1) (cyclic_length size _ count)

/-- The positions of one size follow each other modulo that size. -/
theorem cyclic_getElem? {size : Nat} : ∀ {count cursor : Nat}, cursor < size → ∀ {index : Nat},
    index < count → (cyclic size cursor count)[index]? = some ((cursor + 1 + index) % size) := by
  intro count
  induction count with
  | zero =>
      intro _ _ _ none
      exact absurd none (Nat.not_lt_zero _)
  | succ count ih =>
      intro cursor inside index before
      have wrapped : (if cursor + 1 < size then cursor + 1 else 0) = (cursor + 1) % size := by
        split
        · rw [Nat.mod_eq_of_lt ‹_›]
        · rw [show cursor + 1 = size by omega, Nat.mod_self]
      have within := Nat.mod_lt (cursor + 1) (Nat.zero_lt_of_lt inside)
      rw [cyclic, wrapped]
      cases index with
      | zero => simp
      | succ index =>
          rw [List.getElem?_cons_succ, ih within (Nat.lt_of_succ_lt_succ before), Nat.add_assoc,
            Nat.mod_add_mod]
          congr 2
          omega

variable {size : Nat} {events : List Event}

/-- **Growing keeps the order.** Among the positions below a former size, the cursor follows the
ring of that size. -/
theorem positions_filter : ∀ {ring : Ring}, 0 < size → size ≤ ring.size →
    ∃ count, (positions ring events).filter (· < size) = cyclic size ring.cursor count := by
  induction events with
  | nil => exact fun _ _ => ⟨0, rfl⟩
  | cons event events ih =>
      intro ring positive former
      cases event with
      | grow => exact @ih (ring.step .grow) positive (Nat.le_succ_of_le former)
      | advance =>
          obtain ⟨count, rest⟩ := @ih (ring.step .advance) positive former
          by_cases old : (ring.step .advance).cursor < size
          · refine ⟨count + 1, ?_⟩
            have same : (ring.step .advance).cursor =
                if ring.cursor + 1 < size then ring.cursor + 1 else 0 := by
              simp only [Ring.step] at old ⊢
              split_ifs at old ⊢ <;> omega
            rw [positions, List.filter_cons_of_pos (by simpa using old), rest, cyclic, ← same]
          · refine ⟨count, ?_⟩
            rw [positions, List.filter_cons_of_neg (by simpa using old), rest]
            -- A new position and the one before it are followed by the same former position.
            cases count with
            | zero => rfl
            | succ count =>
                have next : (ring.step .advance).cursor = ring.cursor + 1 ∧
                    size ≤ ring.cursor + 1 := by
                  simp only [Ring.step] at old ⊢
                  split_ifs at old ⊢ <;> omega
                rw [cyclic, cyclic, next.1, if_neg (by omega), if_neg (by omega)]

/-- The advances that `count` former positions take: one for each of them and for each position that
is added, and if the cursor goes past the end, one for each new position ahead of it. -/
theorem positions_enough : ∀ {ring : Ring} {count : Nat}, ring.cursor < ring.size →
    size ≤ ring.size → count ≤ size → count + grows events ≤ advances events →
    (size ≤ ring.cursor + count →
      count + grows events + ring.size ≤ advances events + max size (ring.cursor + 1)) →
    count ≤ ((positions ring events).filter (· < size)).length := by
  induction events with
  | nil =>
      intro ring count _ _ _ enough _
      rw [advances_nil] at enough
      omega
  | cons event events ih =>
      intro ring count inside former atMost enough past
      cases event with
      | grow =>
          rw [grows_grow, advances_grow] at enough past
          refine @ih (ring.step .grow) count (Nat.lt_succ_of_lt inside)
            (Nat.le_succ_of_le former) atMost (by omega) fun wraps => ?_
          have later := past wraps
          simp only [Ring.step]
          omega
      | advance =>
          rw [grows_advance, advances_advance] at enough past
          have bound : (ring.step .advance).cursor < ring.size := by
            simp only [Ring.step]
            split_ifs <;> omega
          rcases Nat.eq_zero_or_pos count with rfl | some
          · exact Nat.zero_le _
          by_cases old : (ring.step .advance).cursor < size
          · rw [positions, List.filter_cons_of_pos (by simpa using old), List.length_cons]
            have rest := @ih (ring.step .advance) (count - 1) bound former (by omega) (by omega) (by
              intro wraps
              simp only [Ring.step] at old wraps ⊢
              split_ifs at old wraps ⊢ <;> omega)
            omega
          · rw [positions, List.filter_cons_of_neg (by simpa using old)]
            simp only [Ring.step] at old
            split_ifs at old with ahead
            · have next : (ring.step .advance).cursor = ring.cursor + 1 := if_pos ahead
              refine @ih (ring.step .advance) count bound former atMost (by omega) fun _ => ?_
              rw [next]
              simp only [Ring.step]
              omega
            · omega

/-- Advances on a ring of a fixed size. -/
theorem foldl_replicate {ring : Ring} (inside : ring.cursor < ring.size) (count : Nat) :
    (List.replicate count Event.advance).foldl Ring.step ring =
      ⟨ring.size, (ring.cursor + count) % ring.size⟩ := by
  induction count with
  | zero => rw [Nat.add_zero, Nat.mod_eq_of_lt inside]; rfl
  | succ count ih =>
      rw [List.replicate_succ', List.foldl_append, ih, ← Nat.add_assoc]
      have within := Nat.mod_lt (ring.cursor + count) (Nat.zero_lt_of_lt inside)
      have again := Nat.mod_add_mod (ring.cursor + count) ring.size 1
      simp only [List.foldl_cons, List.foldl_nil, Ring.step, Ring.mk.injEq, true_and]
      split_ifs with ahead
      · rw [← again, Nat.mod_eq_of_lt ahead]
      · rw [← again, show (ring.cursor + count) % ring.size + 1 = ring.size by omega, Nat.mod_self]

/-- Without growing, the cursor follows the ring. -/
theorem positions_replicate (ring : Ring) (count : Nat) :
    positions ring (List.replicate count .advance) = cyclic ring.size ring.cursor count := by
  induction count generalizing ring with
  | zero => rfl
  | succ count ih => rw [List.replicate_succ, positions, cyclic, ih]; rfl

end Rounds

end RoundRobin
