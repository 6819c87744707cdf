import SExpr.Node.Basic

/-!
Letting go of nodes. Forms that are not needed any more are taken apart one node at a time,
the last one first. A list leaves its children behind, so nothing hangs on a node when it is
let go of, and the cost does not depend on how deep the nodes nest.
-/

namespace SExpr

mutual

/-- The nodes within a node, itself first. -/
def Node.nodes : Node → List Node
  | .leaf atom => [.leaf atom]
  | .list children => .list children :: Forms.nodes children

def Forms.nodes : List Node → List Node
  | [] => []
  | form :: forms => form.nodes ++ Forms.nodes forms

end

@[simp] theorem Forms.nodes_append (as bs : List Node) :
    Forms.nodes (as ++ bs) = Forms.nodes as ++ Forms.nodes bs := by
  induction as with
  | nil => simp [Forms.nodes]
  | cons form as ih => simp [Forms.nodes, ih]

theorem Forms.nodes_reverse_perm (forms : List Node) :
    (Forms.nodes forms.reverse).Perm (Forms.nodes forms) := by
  induction forms with
  | nil => exact .refl _
  | cons form forms ih =>
      rw [List.reverse_cons, Forms.nodes_append]
      simpa [Forms.nodes] using (ih.append_right _).trans List.perm_append_comm

/-- The nodes that are let go of, in their order, where the next one stands first. -/
def Forms.releasePending : List Node → List Node
  | [] => []
  | .leaf atom :: pending => .leaf atom :: releasePending pending
  | .list children :: pending => .list children :: releasePending (children.reverseAux pending)
termination_by pending => Forms.size pending
decreasing_by
  · simp [Forms.size, Node.size]
  · simp only [List.reverseAux_eq, Forms.size_append, Forms.size_reverse, Forms.size, Node.size]
    omega

def Forms.release (forms : List Node) : List Node := releasePending forms.reverse

theorem Forms.releasePending_perm (pending : List Node) :
    (releasePending pending).Perm (Forms.nodes pending) := by
  fun_induction releasePending pending with
  | case1 => exact .refl _
  | case2 atom pending ih => exact ih.cons _
  | case3 children pending ih =>
      have hnodes : (nodes (children.reverseAux pending)).Perm
          (nodes children ++ nodes pending) := by
        rw [List.reverseAux_eq, nodes_append]
        exact (nodes_reverse_perm children).append_right _
      exact (ih.trans hnodes).cons _

/-- Each node within the forms is let go of once. -/
theorem Forms.release_perm (forms : List Node) : (release forms).Perm (Forms.nodes forms) :=
  (releasePending_perm _).trans (nodes_reverse_perm forms)

end SExpr
