import SExpr.Assembly
import SExpr.Node.Release

/-!
Building a tree in place. The unfinished lists are kept in accumulators that are edited one
small edit after the other, and an edit that fails leaves what the edits before it have made.
Where a parse is given up, the unfinished lists are let go of.
-/

namespace SExpr

structure Accumulators where
  /-- The forms of the innermost unfinished list, in order. -/
  level : List Node
  /-- The forms of the lists around it, the outermost list first. -/
  enclosing : List (List Node)
  deriving DecidableEq

/-- An edit that may fail; what it has edited by then stays edited. -/
abbrev Edit := ExceptT ParseError (StateM Accumulators)

def Edit.on {α : Type} (edit : Edit α) (acc : Accumulators) :
    Except ParseError α × Accumulators :=
  edit.run.run acc

namespace Accumulators

def empty : Accumulators := ⟨[], []⟩

/-- Puts other forms in the place of the level, and gives those that were there. -/
def replaceLevel (forms : List Node) : Edit (List Node) :=
  modifyGet fun acc => (acc.level, { acc with level := forms })

def pushForm (form : Node) : Edit Unit :=
  modify fun acc => { acc with level := acc.level ++ [form] }

/-- Makes forms the innermost of the lists around the level. -/
def park (forms : List Node) : Edit Unit :=
  modify fun acc => { acc with enclosing := acc.enclosing ++ [forms] }

/-- Takes the innermost of the lists around the level, if there is one. -/
def unpark? : Edit (Option (List Node)) :=
  modifyGet fun acc =>
    (acc.enclosing.getLast?, { acc with enclosing := acc.enclosing.dropLast })

/-- Takes one token, the one at `index`. -/
def take (options : Options) (index : Nat) : Token → Edit Unit
  | .atom atom => pushForm (.leaf atom)
  | .openParen => do
    if let some limit := options.maxDepth then
      if limit ≤ (← get).enclosing.length then
        throw (.nestingTooDeep limit index)
    park (← replaceLevel [])
  | .closeParen => do
    let some parent ← unpark? | throw (.unexpectedClose index)
    let child ← replaceLevel parent
    pushForm (.list child)

/-- Takes tokens one after the other, the first of them at `index`. -/
def takeAll (options : Options) (index : Nat) : List Token → Edit Unit
  | [] => pure ()
  | token :: tokens => do
    take options index token
    takeAll options (index + 1) tokens

/-- Fails if lists are open. -/
def finish : Edit Unit := do
  let acc ← get
  if acc.enclosing.length ≠ 0 then
    throw (.unclosedOpen acc.enclosing.length)

def descend (options : Options) (tokens : List Token) : Edit Unit := do
  takeAll options 0 tokens
  finish

/-- Builds a tree, or fails and lets go of the unfinished lists, the innermost one first and
the others from the outermost inwards. -/
def build (options : Options) (tokens : List Token) :
    List (List Node) × Except ParseError Tree :=
  match (descend options tokens).on .empty with
  | (.ok (), acc) => ([], .ok ⟨acc.level⟩)
  | (.error error, acc) => (acc.level :: acc.enclosing, .error error)

end Accumulators

end SExpr
