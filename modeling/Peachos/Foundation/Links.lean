import Mathlib.Tactic

/-! # Doubly linked nodes

A list of nodes with their `next` and `prev` links. `linked_iff` describes the links of each
node by the nodes around it. Appending a node and removing the last one keep the links; a
removal that leaves the `prev` link of the following node behind does not.
-/

namespace Links

variable {α : Type*} {null before : α} {next prev next' prev' : α → α} {nodes : List α}

/-- The `prev` link of each node leads to the node before it, the first one's to `before`, and
its `next` link to the node after it, the last one's to `null`. -/
def Linked (null : α) (next prev : α → α) : α → List α → Prop
  | _, [] => True
  | before, node :: rest =>
      prev node = before ∧ next node = rest.headD null ∧ Linked null next prev node rest

/-- The links of a node with its surroundings. -/
theorem Linked.at {left right : List α} {node : α} :
    ∀ {before : α}, Linked null next prev before (left ++ node :: right) →
      prev node = left.getLastD before ∧ next node = right.headD null := by
  induction left with
  | nil => exact fun links => ⟨links.1, links.2.1⟩
  | cons first left ih =>
      intro before links
      rw [List.getLastD_cons]
      exact ih links.2.2

theorem linked_iff : Linked null next prev before nodes ↔
    ∀ left node right, nodes = left ++ node :: right →
      prev node = left.getLastD before ∧ next node = right.headD null := by
  constructor
  · rintro links left node right rfl
    exact links.at
  · intro links
    induction nodes generalizing before with
    | nil => trivial
    | cons node rest ih =>
        obtain ⟨prevHere, nextHere⟩ := links [] node rest rfl
        refine ⟨prevHere, nextHere, ih fun left other right split => ?_⟩
        have around := links (node :: left) other right (congrArg (node :: ·) split)
        rwa [List.getLastD_cons] at around

/-- The first and the last of the nodes around a removed one become neighbours. -/
theorem getLastD_append_cons (left : List α) (node : α) (default : α) (right : List α) :
    (left ++ node :: right).getLastD default = right.getLastD node := by
  rw [List.getLastD_eq_getLast?, List.getLast?_append_cons, List.getLastD_eq_getLast?,
    List.getLast?_cons, Option.getD_some]

/-- Links that agree on the nodes. -/
theorem Linked.congr (links : Linked null next prev before nodes)
    (same : ∀ node ∈ nodes, next' node = next node ∧ prev' node = prev node) :
    Linked null next' prev' before nodes := by
  rw [linked_iff] at links ⊢
  intro left node right split
  have member : node ∈ nodes := by
    rw [split]
    exact List.mem_append_right _ List.mem_cons_self
  rw [(same node member).1, (same node member).2]
  exact links left node right split

/-- A node that occurs once is not the last one of the nodes before its last occurrence. -/
theorem ne_getLastD {left right : List α} {node : α}
    (nodup : (left ++ node :: right).Nodup) (more : right ≠ []) :
    node ≠ right.getLastD node := by
  obtain ⟨last, init, rfl⟩ : ∃ last init, right = init ++ [last] :=
    ⟨right.getLast more, right.dropLast, (List.dropLast_append_getLast more).symm⟩
  rw [List.getLastD_concat]
  have apart := (List.nodup_append.mp nodup).2.1
  exact fun same => (List.nodup_cons.mp apart).1 (same ▸ List.mem_append_right _ (by simp))

/-- **Appending a node.** The last node gets it as `next`, and it gets that one as `prev`. -/
theorem Linked.append (links : Linked null next prev before nodes) {node : α}
    (nodup : (nodes ++ [node]).Nodup) (prevKept : ∀ other ∈ nodes, prev' other = prev other)
    (nextKept : ∀ other ∈ nodes, other ≠ nodes.getLastD before → next' other = next other)
    (nextLast : nodes ≠ [] → next' (nodes.getLastD before) = node)
    (prevNode : prev' node = nodes.getLastD before) (nextNode : next' node = null) :
    Linked null next' prev' before (nodes ++ [node]) := by
  rw [linked_iff] at links ⊢
  intro left other right split
  rcases List.eq_nil_or_concat right with rfl | ⟨init, last, rfl⟩
  · obtain ⟨rfl, same⟩ := List.append_inj' split rfl
    obtain rfl := (List.cons.inj same).1
    exact ⟨prevNode, nextNode⟩
  · rw [List.concat_eq_append, ← List.cons_append, ← List.append_assoc] at split
    obtain ⟨rfl, same⟩ := List.append_inj' split rfl
    obtain rfl := (List.cons.inj same).1
    rw [List.concat_eq_append]
    obtain ⟨prevHere, nextHere⟩ := links left other init rfl
    have member : other ∈ left ++ other :: init :=
      List.mem_append_right _ List.mem_cons_self
    refine ⟨(prevKept other member).trans prevHere, ?_⟩
    rw [getLastD_append_cons] at nextKept nextLast
    cases init with
    | nil => exact nextLast (List.append_ne_nil_of_right_ne_nil _ (List.cons_ne_nil _ _))
    | cons first rest =>
        rw [nextKept other member, nextHere]
        · rfl
        · exact ne_getLastD (List.Nodup.of_append_left nodup) (List.cons_ne_nil _ _)

/-- **Removing the last node.** The node before it gets no `next`. -/
theorem Linked.removeLast {node : α} (links : Linked null next prev before (nodes ++ [node]))
    (nodup : nodes.Nodup) (prevKept : ∀ other ∈ nodes, prev' other = prev other)
    (nextKept : ∀ other ∈ nodes, other ≠ nodes.getLastD before → next' other = next other)
    (nextLast : nodes ≠ [] → next' (nodes.getLastD before) = null) :
    Linked null next' prev' before nodes := by
  rw [linked_iff] at links ⊢
  rintro left other right rfl
  obtain ⟨prevHere, nextHere⟩ := links left other (right ++ [node]) (by
    rw [List.append_assoc, List.cons_append])
  have member : other ∈ left ++ other :: right := List.mem_append_right _ List.mem_cons_self
  refine ⟨(prevKept other member).trans prevHere, ?_⟩
  rw [getLastD_append_cons] at nextKept nextLast
  cases right with
  | nil => exact nextLast (List.append_ne_nil_of_right_ne_nil _ (List.cons_ne_nil _ _))
  | cons first rest =>
      rw [nextKept other member, nextHere]
      · rfl
      · exact ne_getLastD nodup (List.cons_ne_nil _ _)

/-- **A dangling link.** With the `prev` link of the node after a removed one left as it was,
the remaining nodes are not linked. -/
theorem not_linked_of_stale {left right : List α} {node after : α}
    (links : Linked null next prev before (left ++ node :: after :: right))
    (nodup : (before :: (left ++ node :: after :: right)).Nodup)
    (stale : prev' after = prev after) :
    ¬ Linked null next' prev' before (left ++ after :: right) := by
  intro links'
  have old : prev after = node := by
    have here := (@Linked.at _ null next prev (left ++ [node]) right after before
      (by rwa [List.append_assoc, List.singleton_append])).1
    rwa [List.getLastD_concat] at here
  have new := links'.at.1
  rw [stale, old] at new
  rcases List.eq_nil_or_concat left with rfl | ⟨init, last, rfl⟩
  · subst new
    simp at nodup
  · rw [List.concat_eq_append, List.getLastD_concat] at new
    subst new
    simp [List.nodup_append] at nodup

end Links
