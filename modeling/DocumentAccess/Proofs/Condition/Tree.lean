import DocumentAccess.Condition
import Mathlib.Data.List.Basic

/-!
# Conditions as trees

A condition is a tree of nodes. What holds of all conditions is proved node by
node (`Condition.induction`), and the nodes are listed as a reader meets them,
each before its members (`Condition.nodes`).
-/

namespace DocumentAccess.Condition

/-- What holds of a group if it holds of its members, and of every other condition, holds of
    all conditions. -/
@[elab_as_elim]
theorem induction {P : Condition → Prop} (absent : P .absent)
    (leaf : ∀ field op v, P (.leaf field op v)) (raw : ∀ filter, P (.raw filter))
    (foreign : ∀ v, P (.foreign v))
    (group : ∀ junction items, (∀ c ∈ items, P c) → P (.group junction items)) (c : Condition) :
    P c :=
  Condition.rec (motive_1 := P) (motive_2 := fun items => ∀ c ∈ items, P c) absent leaf group raw
    foreign (fun _ h => nomatch h) (fun _ _ hc hcs => List.forall_mem_cons.mpr ⟨hc, hcs⟩) c

theorem join_eq_ok_iff {junction : Junction} {items : List Condition} {c : Condition} :
    join junction items = .ok c ↔ items ≠ [] ∧ c = .group junction items := by
  rw [join]
  cases items with
  | nil =>
      constructor
      · intro h
        cases h
      · rintro ⟨hne, -⟩
        exact absurd rfl hne
  | cons x xs =>
      constructor
      · intro h
        exact ⟨List.cons_ne_nil x xs, (Except.ok.inj h).symm⟩
      · rintro ⟨-, rfl⟩
        rfl

/-! ## Nodes in reading order -/

mutual

/-- The nodes of a condition in reading order, a group before its members. -/
def nodes : Condition → List Condition
  | .group junction items => .group junction items :: allNodes items
  | c => [c]

/-- The nodes of some conditions, in reading order. -/
def allNodes : List Condition → List Condition
  | [] => []
  | x :: xs => nodes x ++ allNodes xs

end

theorem allNodes_eq (items : List Condition) : allNodes items = items.flatMap nodes := by
  induction items with
  | nil => rfl
  | cons x xs ih => rw [allNodes, ih, List.flatMap_cons]

theorem nodes_group (junction : Junction) (items : List Condition) :
    nodes (.group junction items) = .group junction items :: items.flatMap nodes := by
  rw [nodes, allNodes_eq]

/-- A node on its own: a group without its members. -/
def bare : Condition → Condition
  | .group junction _ => .group junction []
  | n => n

end DocumentAccess.Condition
