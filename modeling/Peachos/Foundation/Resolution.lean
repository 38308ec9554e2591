import Mathlib.Tactic.Basic

/-! # Resolving a path

A directory is a list of entries, and some entries lead to a further directory. A path is resolved
from a directory on by choosing an entry of each name, the last one (`Resolves`) or one that is the
only one of its name.
-/

namespace Peachos.Resolution

variable {Entry Name : Type}

/-- The entry is the last one of the directory that has the name. -/
def LastNamed (named : Entry → Name → Prop) (entries : List Entry) (name : Name)
    (entry : Entry) : Prop :=
  ∃ k : Nat, entries[k]? = some entry ∧ named entry name ∧
    ∀ (j : Nat) other, entries[j]? = some other → named other name → j ≤ k

/-- The entry is the only one of the directory that has the name. -/
def OnlyNamed (named : Entry → Name → Prop) (entries : List Entry) (name : Name)
    (entry : Entry) : Prop :=
  ∃ k : Nat, entries[k]? = some entry ∧ named entry name ∧
    ∀ (j : Nat) other, entries[j]? = some other → named other name → j = k

/-- The path leads from the directory `entries` to the target. For each name it takes the entry that
`chosen` says, and it goes through the directories `trail`, to which `leads` says the entries lead. -/
inductive ResolvesBy (chosen : List Entry → Name → Entry → Prop)
    (leads : Entry → List Entry → Prop) :
    (entries : List Entry) → (names : List Name) → (trail : List (List Entry)) → (target : Entry) →
      Prop
  | last {entries : List Entry} {name : Name} {entry : Entry} (here : chosen entries name entry) :
      ResolvesBy chosen leads entries [name] [] entry
  | down {entries below : List Entry} {name : Name} {names : List Name} {trail : List (List Entry)}
      {entry target : Entry} (here : chosen entries name entry) (into : leads entry below)
      (rest : ResolvesBy chosen leads below names trail target) :
      ResolvesBy chosen leads entries (name :: names) (below :: trail) target

/-- The path resolves to the target. -/
abbrev Resolves (named : Entry → Name → Prop) (leads : Entry → List Entry → Prop) :
    List Entry → List Name → List (List Entry) → Entry → Prop :=
  ResolvesBy (LastNamed named) leads

/-- No empty path resolves. -/
theorem ResolvesBy.notEmpty {chosen : List Entry → Name → Entry → Prop}
    {leads : Entry → List Entry → Prop} {entries : List Entry} {names : List Name}
    {trail : List (List Entry)} {target : Entry}
    (resolves : ResolvesBy chosen leads entries names trail target) : names ≠ [] := by
  cases resolves <;> exact List.cons_ne_nil _ _

end Peachos.Resolution
