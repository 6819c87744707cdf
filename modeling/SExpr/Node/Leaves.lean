import SExpr.Node.Basic

/-!
Walking the atoms of a node one at a time. The walk keeps the nodes it has not
entered yet, so its cost does not depend on how deep the nodes nest.
-/

namespace SExpr

/-- A walk over atoms; the next node to enter comes first. -/
structure Leaves where
  pending : List Node
  deriving DecidableEq

namespace Leaves

/-- The next atom, or none when the walk is over, and the walk after it. -/
def next : Leaves → Option Atom × Leaves
  | ⟨[]⟩ => (none, ⟨[]⟩)
  | ⟨.leaf atom :: rest⟩ => (some atom, ⟨rest⟩)
  | ⟨.list children :: rest⟩ => next ⟨children ++ rest⟩
termination_by walk => Forms.size walk.pending
decreasing_by
  simp only [Forms.size_append, Forms.size, Node.size]
  omega

@[simp] theorem next_nil : next ⟨[]⟩ = (none, ⟨[]⟩) := by rw [next]

@[simp] theorem next_leaf (atom : Atom) (rest : List Node) :
    next ⟨.leaf atom :: rest⟩ = (some atom, ⟨rest⟩) := by rw [next]

@[simp] theorem next_list (children rest : List Node) :
    next ⟨.list children :: rest⟩ = next ⟨children ++ rest⟩ := by rw [next]

/-- A walk gives the first of its atoms and goes on with the others. -/
theorem atoms_of_next_some {walk rest : Leaves} {atom : Atom}
    (h : walk.next = (some atom, rest)) :
    Forms.atoms walk.pending = atom :: Forms.atoms rest.pending := by
  fun_induction next walk with
  | case1 => simp at h
  | case2 atom rest =>
      cases h
      simp [Forms.atoms, Node.atoms]
  | case3 children rest ih => simpa [Forms.atoms, Node.atoms] using ih h

theorem atoms_of_next_none {walk rest : Leaves} (h : walk.next = (none, rest)) :
    Forms.atoms walk.pending = [] ∧ rest = ⟨[]⟩ := by
  fun_induction next walk with
  | case1 =>
      cases h
      simp [Forms.atoms]
  | case2 atom rest => simp at h
  | case3 children rest ih => simpa [Forms.atoms, Node.atoms] using ih h

theorem size_next_lt {walk rest : Leaves} {atom : Atom}
    (h : walk.next = (some atom, rest)) :
    Forms.size rest.pending < Forms.size walk.pending := by
  fun_induction next walk with
  | case1 => simp at h
  | case2 atom rest =>
      cases h
      simp [Forms.size, Node.size]
  | case3 children rest ih =>
      have := ih h
      simp only [Forms.size_append, Forms.size, Node.size] at this ⊢
      omega

/-- The results of asking `n` times for the next atom. -/
def nexts : Nat → Leaves → List (Option Atom)
  | 0, _ => []
  | n + 1, walk => walk.next.1 :: nexts n walk.next.2

/-- Goes through the whole walk, the first atom first. -/
def foldl {β : Type} (f : β → Atom → β) (acc : β) (walk : Leaves) : β :=
  match _ : walk.next with
  | (none, _) => acc
  | (some atom, rest) => foldl f (f acc atom) rest
termination_by Forms.size walk.pending
decreasing_by exact size_next_lt ‹_›

theorem foldl_eq {β : Type} (f : β → Atom → β) (acc : β) (walk : Leaves) :
    walk.foldl f acc = (Forms.atoms walk.pending).foldl f acc := by
  fun_induction foldl f acc walk with
  | case1 acc walk rest h => simp [(atoms_of_next_none h).1]
  | case2 acc walk atom rest h ih => simp [atoms_of_next_some h, ih]

def count (walk : Leaves) : Nat := walk.foldl (fun n _ => n + 1) 0

def toList (walk : Leaves) : List Atom :=
  (walk.foldl (fun atoms atom => atom :: atoms) []).reverse

/-- The atom that a walk ends with. -/
def last? (walk : Leaves) : Option Atom := walk.foldl (fun _ atom => some atom) none

@[simp] theorem count_eq (walk : Leaves) : walk.count = (Forms.atoms walk.pending).length := by
  simp [count, foldl_eq]

@[simp] theorem toList_eq (walk : Leaves) : walk.toList = Forms.atoms walk.pending := by
  simp [toList, foldl_eq]

end Leaves

namespace Node

def leaves (n : Node) : Leaves := ⟨[n]⟩

def leafCount (n : Node) : Nat := n.leaves.count

end Node

end SExpr
