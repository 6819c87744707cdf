import SExpr.Error
import SExpr.Tree

/-!
Building a tree from tokens. An assembly holds the unfinished lists, each with
the forms it has so far: an opening parenthesis starts a list, and a closing
one turns the innermost unfinished list into a form of the one around it. A
token that cannot be taken leaves the assembly as it was.
-/

namespace SExpr

structure Options where
  /-- The number of lists that may be open at once; `none` is no limit. -/
  maxDepth : Option Nat := none
  deriving DecidableEq

structure Assembly where
  /-- The forms of the innermost unfinished list, the latest first. -/
  current : List Node
  /-- The forms of the lists around it, the innermost list first. -/
  outer : List (List Node)
  /-- The number of open lists, so that a limit is checked without counting. -/
  openLists : Nat
  openLists_eq : openLists = outer.length
  deriving DecidableEq

namespace Assembly

def empty : Assembly := ⟨[], [], 0, rfl⟩

def addLeaf (a : Assembly) (atom : Atom) : Assembly :=
  { a with current := .leaf atom :: a.current }

def startList (a : Assembly) : Assembly :=
  ⟨[], a.current :: a.outer, a.openLists + 1, by simp [a.openLists_eq]⟩

/-- Finishes the innermost list, if there is an unfinished one. -/
def finishList? : Assembly → Option Assembly
  | ⟨_, [], _, _⟩ => none
  | ⟨current, around :: outer, openLists, h⟩ =>
      some ⟨.list current.reverse :: around, outer, openLists - 1, by simp [h]⟩

/-- The forms of the innermost unfinished list, in order. -/
def forms (a : Assembly) : List Node := a.current.reverse

/-- The tokens that an assembly has taken. -/
def tokens (a : Assembly) : List Token :=
  a.outer.reverse.flatMap (fun around => Forms.tokens around.reverse ++ [.openParen]) ++
    Forms.tokens a.forms

/-- Takes one token, the one at `index`. -/
def step (options : Options) (index : Nat) (a : Assembly) : Token → Except ParseError Assembly
  | .atom atom => .ok (a.addLeaf atom)
  | .openParen =>
    match options.maxDepth with
    | none => .ok a.startList
    | some limit =>
      if limit ≤ a.openLists then .error (.nestingTooDeep limit index) else .ok a.startList
  | .closeParen =>
    match a.finishList? with
    | none => .error (.unexpectedClose index)
    | some next => .ok next

/-- Takes all tokens, the first of them at `index`; the assembly that is left
has taken the tokens before the error. -/
def run (options : Options) (index : Nat) (a : Assembly) :
    List Token → Option ParseError × Assembly
  | [] => (if a.openLists = 0 then none else some (.unclosedOpen a.openLists), a)
  | token :: tokens =>
    match a.step options index token with
    | .error error => (some error, a)
    | .ok next => next.run options (index + 1) tokens

/-- A token that is taken is the only thing an assembly gains. -/
theorem tokens_step {options : Options} {index : Nat} {a next : Assembly} {token : Token}
    (h : a.step options index token = .ok next) : next.tokens = a.tokens ++ [token] := by
  cases token with
  | atom atom =>
      cases h
      simp [tokens, forms, addLeaf, Forms.tokens, Node.tokens]
  | openParen =>
      have hnext : next = a.startList := by
        simp only [step] at h
        split at h
        · cases h
          rfl
        · split at h <;> cases h
          rfl
      subst hnext
      simp [tokens, forms, startList, Forms.tokens]
  | closeParen =>
      obtain ⟨current, _ | ⟨around, outer⟩, openLists, _⟩ := a
      · simp [step, finishList?] at h
      · simp only [step, finishList?] at h
        cases h
        simp [tokens, forms, Forms.tokens, Node.tokens]

end Assembly

/-- The tree that a sequence of tokens stands for. -/
def Tree.ofTokens (tokens : List Token) (options : Options := {}) : Except ParseError Tree :=
  match Assembly.empty.run options 0 tokens with
  | (none, a) => .ok ⟨a.forms⟩
  | (some error, _) => .error error

end SExpr
