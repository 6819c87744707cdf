import SExpr.Node.Depth
import SExpr.Node.Leaves
import SExpr.Node.Printer

/-!
Trees: the sequence of forms at the top level of a text.
-/

namespace SExpr

structure Tree where
  forms : List Node
  deriving DecidableEq

namespace Tree

def empty : Tree := ⟨[]⟩

/-- The number of forms. -/
def size (t : Tree) : Nat := t.forms.length

def isEmpty (t : Tree) : Bool := t.forms.isEmpty

/-- The whole tree as one list. -/
def toNode (t : Tree) : Node := .list t.forms

def depth (t : Tree) : Nat := Forms.depth t.forms

def leaves (t : Tree) : Leaves := ⟨t.forms⟩

def leafCount (t : Tree) : Nat := t.leaves.count

def atoms (t : Tree) : List Atom := Forms.atoms t.forms

def tokens (t : Tree) : List Token := Forms.tokens t.forms

def chars (t : Tree) : List Char := Forms.chars t.forms

def text (t : Tree) : String := String.ofList t.chars

end Tree

end SExpr
