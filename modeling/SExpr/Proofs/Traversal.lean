import SExpr.Proofs.Depth

/-!
The two walks over a tree, for its atoms and for its depth. Each of them keeps the nodes
that it has still to enter, and a list of nodes is entered by putting its children in its
place: in their order for the atoms, and the last one first for the depth. So what a walk
keeps, read from the front, always stands for exactly what is still to come: the atoms that it
will give, or the nodes that it will look at. One step takes the first of these off, and a
whole walk is an induction over its steps.
-/

namespace SExpr

/-! ### Atoms -/

theorem Forms.atoms_eq_flatMap (forms : List Node) :
    Forms.atoms forms = forms.flatMap Node.atoms := by
  induction forms with
  | nil => rfl
  | cons form forms ih => rw [Forms.atoms, ih, List.flatMap_cons]

/-- The second sequence of forms is the first with empty lists put in, anywhere and at any
depth. -/
inductive Forms.Padded : List Node → List Node → Prop where
  | nil : Padded [] []
  | empty {forms padded : List Node} (h : Padded forms padded) :
      Padded forms (.list [] :: padded)
  | leaf {forms padded : List Node} (atom : Atom) (h : Padded forms padded) :
      Padded (.leaf atom :: forms) (.leaf atom :: padded)
  | list {children inside forms padded : List Node} (hchildren : Padded children inside)
      (h : Padded forms padded) :
      Padded (.list children :: forms) (.list inside :: padded)

theorem Forms.Padded.atoms_eq {forms padded : List Node} (h : Forms.Padded forms padded) :
    Forms.atoms padded = Forms.atoms forms := by
  induction h with
  | nil => rfl
  | empty _ ih => simpa [Forms.atoms, Node.atoms] using ih
  | leaf atom _ ih => rw [Forms.atoms, Forms.atoms, ih]
  | list _ _ ihchildren ih =>
      rw [Forms.atoms, Forms.atoms, Node.atoms, Node.atoms, ihchildren, ih]

namespace Leaves

/-- Asking again and again gives the atoms one by one, and nothing more behind the last. -/
theorem nexts_eq (walk : Leaves) (count : Nat) :
    walk.nexts count = (List.range count).map fun place => (Forms.atoms walk.pending)[place]? := by
  induction count generalizing walk with
  | zero => rfl
  | succ count ih =>
      rw [nexts, List.range_succ_eq_map, List.map_cons, List.map_map, ih]
      rcases hnext : walk.next with ⟨_ | atom, rest⟩
      · obtain ⟨hatoms, rfl⟩ := atoms_of_next_none hnext
        rw [hatoms]
        rfl
      · rw [atoms_of_next_some hnext]
        rfl

/-- The walk over the atoms of a node or a tree gives them from left to right, then nothing
however often it is asked. Empty lists are passed over wherever they stand. -/
theorem nexts_in_order (count : Nat) :
    (∀ n : Node,
        n.leaves.nexts count = (List.range count).map (fun place => n.atoms[place]?) ∧
          n.leafCount = n.atoms.length) ∧
      (∀ t : Tree,
        t.leaves.nexts count = (List.range count).map (fun place => t.atoms[place]?) ∧
          t.leafCount = t.atoms.length ∧ t.atoms = t.forms.flatMap Node.atoms ∧
            t.toNode.atoms = t.atoms ∧ t.toNode.leaves.nexts count = t.leaves.nexts count) ∧
      (∀ atom, (Node.leaf atom).atoms = [atom]) ∧
      (∀ children, (Node.list children).atoms = children.flatMap Node.atoms) ∧
      ∀ forms padded, Forms.Padded forms padded →
        nexts count ⟨padded⟩ = nexts count ⟨forms⟩ := by
  have hnode (n : Node) : Forms.atoms [n] = n.atoms := by
    rw [Forms.atoms, Forms.atoms, List.append_nil]
  refine ⟨fun n => ⟨?_, ?_⟩, fun t => ⟨nexts_eq _ _, count_eq _, ?_, rfl, ?_⟩,
    fun atom => rfl, Forms.atoms_eq_flatMap, fun forms padded hpadded => ?_⟩
  · rw [nexts_eq, ← hnode n]
    rfl
  · rw [← hnode n]
    exact count_eq _
  · exact Forms.atoms_eq_flatMap t.forms
  · rw [nexts_eq, nexts_eq]
    show (List.range count).map (fun place => (Forms.atoms [t.toNode])[place]?) = _
    rw [hnode]
    rfl
  · rw [nexts_eq, nexts_eq, hpadded.atoms_eq]

/-- Empty lists before, between and behind two atoms, and within the list around one. -/
theorem nexts_in_order_padded :
    Forms.Padded [.symbol "a", .list [.integer 1]]
        [.list [], .symbol "a", .list [.list [], .integer 1, .list []], .list []] ∧
      nexts 4 ⟨[.list [], .symbol "a", .list [.list [], .integer 1, .list []], .list []]⟩ =
        nexts 4 ⟨[.symbol "a", .list [.integer 1]]⟩ := by
  have hpadded : Forms.Padded [.symbol "a", .list [.integer 1]]
      [.list [], .symbol "a", .list [.list [], .integer 1, .list []], .list []] :=
    .empty (.leaf _ (.list (.empty (.leaf _ (.empty .nil))) (.empty .nil)))
  exact ⟨hpadded, (nexts_in_order 4).2.2.2.2 _ _ hpadded⟩

end Leaves

/-! ### Nodes -/

mutual

/-- The nodes within a node, each behind those within it and the node itself at the end, with
the number of lists around each. -/
def Node.subnodes (around : Nat) : Node → List (Node × Nat)
  | .leaf atom => [(.leaf atom, around)]
  | .list children => Forms.subnodes (around + 1) children ++ [(.list children, around)]

def Forms.subnodes (around : Nat) : List Node → List (Node × Nat)
  | [] => []
  | form :: forms => form.subnodes around ++ Forms.subnodes around forms

end

namespace DepthSearch

/-- The nodes that a search has still to look at, in their order: a node comes before those
within it, and what stands later comes first. -/
def ahead (search : DepthSearch) : List (Node × Nat) :=
  search.pending.flatMap fun entry => (entry.1.subnodes entry.2).reverse

theorem flatMap_stacked (around : Nat) (nodes : List Node) :
    (stacked around nodes).flatMap (fun entry => (entry.1.subnodes entry.2).reverse) =
      (Forms.subnodes around nodes).reverse := by
  induction nodes with
  | nil => rfl
  | cons n nodes ih =>
      rw [stacked, List.map_cons, List.reverse_cons, List.flatMap_append, ← stacked, ih,
        Forms.subnodes, List.reverse_append, List.flatMap_singleton]

/-- A step looks at the first node ahead, and leaves the others. -/
theorem ahead_of_step {search next : DepthSearch} (h : search.step = some next) :
    ∃ entry rest, search.pending = entry :: rest ∧ search.ahead = entry :: next.ahead := by
  match search with
  | ⟨[], _⟩ => cases h
  | ⟨(.leaf atom, around) :: rest, deepest⟩ =>
      cases h
      exact ⟨_, _, rfl, rfl⟩
  | ⟨(.list children, around) :: rest, deepest⟩ =>
      cases h
      refine ⟨_, _, rfl, ?_⟩
      rw [ahead, ahead, List.flatMap_append, flatMap_stacked, List.flatMap_cons, Node.subnodes,
        List.reverse_append, List.reverse_singleton, List.singleton_append, List.cons_append]

theorem ahead_of_step_none {search : DepthSearch} (h : search.step = none) :
    search.ahead = [] ∧ search.pending = [] := by
  match search with
  | ⟨[], _⟩ => exact ⟨rfl, rfl⟩
  | ⟨(.leaf _, _) :: _, _⟩ => cases h
  | ⟨(.list _, _) :: _, _⟩ => cases h

/-- A search looks at nodes step by step, each taken from the front of those it keeps. -/
inductive Looks : DepthSearch → List (Node × Nat) → DepthSearch → Prop where
  | nil {search : DepthSearch} : Looks search [] search
  | cons {search next last : DepthSearch} {entry : Node × Nat} {rest looked : List (Node × Nat)}
      (hentry : search.pending = entry :: rest) (hstep : search.step = some next)
      (hrest : Looks next looked last) :
      Looks search (entry :: looked) last

/-- What a search has looked at and what is then ahead of it is what was ahead before. -/
theorem Looks.ahead_eq {search last : DepthSearch} {looked : List (Node × Nat)}
    (h : Looks search looked last) : search.ahead = looked ++ last.ahead := by
  induction h with
  | nil => rfl
  | cons hentry hstep _ ih =>
      obtain ⟨first, others, hfirst, hahead⟩ := ahead_of_step hstep
      cases hentry.symm.trans hfirst
      rw [hahead, ih, List.cons_append]

/-- A search comes to an end, with nothing pending. -/
theorem exists_looks (search : DepthSearch) :
    ∃ looked last, Looks search looked last ∧ last.step = none ∧
      last.deepest = search.run := by
  fun_induction run search with
  | case1 search hstep => exact ⟨[], search, .nil, hstep, rfl⟩
  | case2 search next hstep ih =>
      obtain ⟨looked, last, hlooks, hlast, hdeepest⟩ := ih
      obtain ⟨entry, rest, hentry, -⟩ := ahead_of_step hstep
      exact ⟨_, last, .cons hentry hstep hlooks, hlast, hdeepest⟩

end DepthSearch

theorem Forms.depth_eq_max? (forms : List Node) :
    Forms.depth forms = (forms.map Node.depth).max?.getD 0 := by
  induction forms with
  | nil => rw [Forms.depth_nil, List.map_nil, List.max?_nil, Option.getD_none]
  | cons form forms ih =>
      rw [Forms.depth_cons, ih, List.map_cons, List.max?_cons]
      cases (forms.map Node.depth).max? with
      | none => simp
      | some deepest => simp

/-- The search finds the depth that the structure has: none for a leaf, and for a list one
more than the deepest of its forms. It ends whatever the forms are, and has then looked at
each node within them once: from the last to the first, and at a list before its children. -/
theorem DepthSearch.finds_structural_depth :
    (∀ atom, (Node.leaf atom).depth = 0) ∧
      (∀ children, (Node.list children).depth = 1 + (children.map Node.depth).max?.getD 0) ∧
      (∀ t : Tree, t.depth = (t.forms.map Node.depth).max?.getD 0 ∧
        t.toNode.depth = t.depth + 1) ∧
      ∀ forms, ∃ looked last, Looks (ofForms forms) looked last ∧ last.pending = [] ∧
        last.deepest = Forms.depth forms ∧ looked.reverse = Forms.subnodes 0 forms := by
  refine ⟨Node.depth_leaf, fun children => ?_, fun t => ⟨?_, ?_⟩, fun forms => ?_⟩
  · rw [Node.depth_list, Forms.depth_eq_max?, Nat.add_comm]
  · exact Forms.depth_eq_max? t.forms
  · exact Node.depth_list t.forms
  · obtain ⟨looked, last, hlooks, hlast, hdeepest⟩ := exists_looks (ofForms forms)
    obtain ⟨hnone, hpending⟩ := ahead_of_step_none hlast
    have hlooked : (ofForms forms).ahead = looked := by
      rw [hlooks.ahead_eq, hnone, List.append_nil]
    have hahead : (ofForms forms).ahead = (Forms.subnodes 0 forms).reverse :=
      flatMap_stacked 0 forms
    refine ⟨looked, last, hlooks, hpending, hdeepest, ?_⟩
    rw [← hlooked, hahead, List.reverse_reverse]

end SExpr
