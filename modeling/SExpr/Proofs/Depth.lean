import SExpr.Tree

/-!
The depth that the search finds. A node still to be looked at lets the search
meet as many open lists as there are around the node and, at most, within it;
the greatest of these numbers does not change from step to step, so it is the
answer. The answer obeys the equations that one would define the depth by, and
the search is not needed after that.
-/

namespace SExpr

mutual

/-- The number of lists that are open at once within a node. -/
def Node.nesting : Node → Nat
  | .leaf _ => 0
  | .list children => Forms.nesting children + 1

def Forms.nesting : List Node → Nat
  | [] => 0
  | form :: forms => max form.nesting (Forms.nesting forms)

end

namespace DepthSearch

/-- The greatest number of open lists that nodes can lead a search to, if that is
more than it has met. -/
def reach (pending : List (Node × Nat)) (deepest : Nat) : Nat :=
  pending.foldr (fun entry most => max (entry.2 + entry.1.nesting) most) deepest

@[simp] theorem reach_nil (deepest : Nat) : reach [] deepest = deepest := rfl

@[simp] theorem reach_cons (n : Node) (around : Nat) (pending : List (Node × Nat))
    (deepest : Nat) :
    reach ((n, around) :: pending) deepest = max (around + n.nesting) (reach pending deepest) :=
  rfl

theorem le_reach (pending : List (Node × Nat)) (deepest : Nat) :
    deepest ≤ reach pending deepest := by
  induction pending with
  | nil => exact Nat.le_refl deepest
  | cons entry pending ih => exact Nat.le_trans ih (Nat.le_max_right _ _)

theorem reach_max (pending : List (Node × Nat)) (deepest around : Nat) :
    reach pending (max deepest around) = max around (reach pending deepest) := by
  induction pending with
  | nil => exact Nat.max_comm deepest around
  | cons entry pending ih =>
      rw [reach_cons, reach_cons, ih]
      omega

theorem stacked_cons (n : Node) (nodes : List Node) (around : Nat) (pending : List (Node × Nat)) :
    stacked around (n :: nodes) ++ pending = stacked around nodes ++ (n, around) :: pending := by
  rw [stacked, stacked, List.map_cons, List.reverse_cons, List.append_assoc,
    List.singleton_append]

theorem mem_stacked {entry : Node × Nat} {nodes : List Node} {around : Nat}
    (h : entry ∈ stacked around nodes) : entry.2 = around := by
  obtain ⟨n, -, rfl⟩ := List.mem_map.1 (List.mem_reverse.1 h)
  rfl

/-- The children of a list lead where the deepest of them leads. -/
theorem reach_children (children : List Node) (pending : List (Node × Nat))
    {around deepest : Nat} (h : around ≤ deepest) :
    reach (stacked around children ++ pending) deepest =
      max (around + Forms.nesting children) (reach pending deepest) := by
  induction children generalizing pending with
  | nil =>
      have hle := le_reach pending deepest
      rw [stacked, List.map_nil, List.reverse_nil, List.nil_append, Forms.nesting]
      omega
  | cons child children ih =>
      rw [stacked_cons, ih, reach_cons, Forms.nesting]
      omega

/-- The lists around a pending node have been met. -/
def Met (search : DepthSearch) : Prop := ∀ entry ∈ search.pending, entry.2 ≤ search.deepest

/-- A step changes neither where a search leads nor that it has met the lists
around its nodes. -/
theorem reach_step {search next : DepthSearch} (h : search.step = some next)
    (hmet : search.Met) :
    next.Met ∧ reach next.pending next.deepest = reach search.pending search.deepest := by
  match search with
  | ⟨[], _⟩ => cases h
  | ⟨(.leaf atom, around) :: rest, deepest⟩ =>
      cases h
      have haround : around ≤ deepest := hmet _ List.mem_cons_self
      have hle := le_reach rest deepest
      refine ⟨fun entry hentry => hmet entry (List.mem_cons_of_mem _ hentry), ?_⟩
      show reach rest deepest = max (around + 0) (reach rest deepest)
      omega
  | ⟨(.list children, around) :: rest, deepest⟩ =>
      cases h
      constructor
      · intro entry hentry
        rcases List.mem_append.1 hentry with hchild | hrest
        · rw [mem_stacked hchild]
          exact Nat.le_max_right _ _
        · exact Nat.le_trans (hmet entry (List.mem_cons_of_mem _ hrest)) (Nat.le_max_left _ _)
      · show reach (stacked (around + 1) children ++ rest) (max deepest (around + 1)) =
          max (around + (Forms.nesting children + 1)) (reach rest deepest)
        rw [reach_children _ _ (Nat.le_max_right _ _), reach_max]
        omega

theorem run_eq_reach {search : DepthSearch} (hmet : search.Met) :
    search.run = reach search.pending search.deepest := by
  fun_induction run search with
  | case1 search hstep =>
      obtain ⟨_ | ⟨⟨n, around⟩, rest⟩, deepest⟩ := search
      · rfl
      · cases n <;> cases hstep
  | case2 search next hstep ih =>
      obtain ⟨hnext, hreach⟩ := reach_step hstep hmet
      rw [ih hnext, hreach]

end DepthSearch

theorem Forms.depth_eq_nesting (forms : List Node) : Forms.depth forms = Forms.nesting forms := by
  have hmet : (DepthSearch.ofForms forms).Met := by
    intro entry hentry
    exact Nat.le_of_eq (DepthSearch.mem_stacked hentry)
  have hreach := DepthSearch.reach_children forms [] (Nat.le_refl 0)
  rw [List.append_nil, DepthSearch.reach_nil] at hreach
  rw [Forms.depth, DepthSearch.run_eq_reach hmet]
  show DepthSearch.reach (DepthSearch.stacked 0 forms) 0 = Forms.nesting forms
  omega

theorem Node.depth_eq_nesting (n : Node) : n.depth = n.nesting := by
  rw [Node.depth, Forms.depth_eq_nesting, Forms.nesting, Forms.nesting, Nat.max_zero]

/-! ### The equations of the depth -/

@[simp] theorem Node.depth_leaf (atom : Atom) : (Node.leaf atom).depth = 0 := by
  rw [Node.depth_eq_nesting, Node.nesting]

@[simp] theorem Node.depth_list (children : List Node) :
    (Node.list children).depth = Forms.depth children + 1 := by
  rw [Node.depth_eq_nesting, Node.nesting, Forms.depth_eq_nesting]

@[simp] theorem Forms.depth_nil : Forms.depth [] = 0 := by
  rw [Forms.depth_eq_nesting, Forms.nesting]

@[simp] theorem Forms.depth_cons (form : Node) (forms : List Node) :
    Forms.depth (form :: forms) = max form.depth (Forms.depth forms) := by
  rw [Forms.depth_eq_nesting, Forms.nesting, Node.depth_eq_nesting, Forms.depth_eq_nesting]

@[simp] theorem Forms.depth_append (as bs : List Node) :
    Forms.depth (as ++ bs) = max (Forms.depth as) (Forms.depth bs) := by
  induction as with
  | nil => simp
  | cons form as ih => simp [ih, Nat.max_assoc]

end SExpr
