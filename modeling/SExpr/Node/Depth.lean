import SExpr.Node.Basic

/-!
Nesting depth: the number of lists open at once. It is found by a search that
keeps the nodes still to look at, each with the number of lists around it, so
its cost does not depend on how deep the nodes nest. The node that was put there
last is looked at first, so of the forms of a list the last one comes first.
-/

namespace SExpr

structure DepthSearch where
  /-- Nodes to look at, with the number of lists around each, the latest first. -/
  pending : List (Node × Nat)
  /-- The greatest number of open lists met so far. -/
  deepest : Nat
  deriving DecidableEq

namespace DepthSearch

/-- Nodes that are put in front one after the other, with the number of lists around them. -/
def stacked (around : Nat) (nodes : List Node) : List (Node × Nat) :=
  (nodes.map fun n => (n, around)).reverse

def ofForms (forms : List Node) : DepthSearch := ⟨stacked 0 forms, 0⟩

/-- Looks at one node; there is none when the search is over. -/
def step : DepthSearch → Option DepthSearch
  | ⟨[], _⟩ => none
  | ⟨(.leaf _, _) :: rest, deepest⟩ => some ⟨rest, deepest⟩
  | ⟨(.list children, around) :: rest, deepest⟩ =>
      some ⟨stacked (around + 1) children ++ rest, max deepest (around + 1)⟩

/-- The number of nodes that the search has not looked at. -/
def work (search : DepthSearch) : Nat := Forms.size (search.pending.map Prod.fst)

theorem work_step {search next : DepthSearch} (h : search.step = some next) :
    search.work = next.work + 1 := by
  match search with
  | ⟨[], _⟩ => simp [step] at h
  | ⟨(.leaf _, _) :: rest, _⟩ =>
      cases h
      simp [work, Forms.size, Node.size, Nat.add_comm]
  | ⟨(.list children, around) :: rest, _⟩ =>
      cases h
      simp [work, stacked, Forms.size, Node.size, Function.comp_def]
      omega

/-- Steps until no node is left. -/
def run (search : DepthSearch) : Nat :=
  match _ : search.step with
  | none => search.deepest
  | some next => run next
termination_by search.work
decreasing_by
  have := work_step ‹_›
  omega

end DepthSearch

/-- The greatest number of lists open at once within a sequence of forms. -/
def Forms.depth (forms : List Node) : Nat := (DepthSearch.ofForms forms).run

def Node.depth (n : Node) : Nat := Forms.depth [n]

end SExpr
