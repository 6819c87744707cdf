import SExpr.Reader

/-!
A workbench for building trees by hand: a stack of nodes beside one tree.
Commands push nodes, combine the topmost ones and move nodes between the stack
and the tree. A command that fails has no next state, so it changes nothing.
-/

namespace SExpr

structure Workbench where
  /-- The nodes on the stack, the topmost first. -/
  stack : List Node := []
  tree : Tree := .empty
  deriving DecidableEq

namespace Workbench

inductive Command where
  | pushAtom (atom : Atom)
  /-- Push the operator written as a character. -/
  | pushOperator (c : Char)
  | pushToken (token : Token)
  /-- Make a list of the topmost nodes. -/
  | makeList (count : Nat)
  | duplicate
  /-- Push a child of the topmost node. -/
  | child (index : Nat)
  /-- Compare the two topmost nodes. -/
  | compare
  /-- Ask the topmost node for atoms, a number of times. -/
  | leaves (count : Nat)
  | drop (count : Nat)
  /-- Make the tree of the topmost nodes. -/
  | makeTree (count : Nat)
  | read (text : String) (options : Options)
  /-- Push a form of the tree. -/
  | form (index : Nat)
  /-- Ask the tree for atoms, a number of times. -/
  | treeLeaves (count : Nat)
  | listForms
  /-- Move the forms of the tree onto the stack. -/
  | takeForms
  /-- Move the tree onto the stack as one list. -/
  | takeNode
  deriving DecidableEq

inductive Answer where
  | nothing
  | pushed (node : Node)
  | rejected (token : Token)
  | verdict (equal : Bool)
  | atoms (found : List (Option Atom))
  | tree (tree : Tree)
  | texts (texts : List String)
  | nodes (nodes : List Node)
  deriving DecidableEq

inductive Failure where
  /-- The stack holds fewer nodes than a command needs. -/
  | underflow
  | read (error : ReadError)
  deriving DecidableEq

def push (w : Workbench) (node : Node) : Answer × Workbench :=
  (.pushed node, { w with stack := node :: w.stack })

/-- The topmost nodes in the order of their pushing, and the stack below them. -/
def pop? (w : Workbench) (count : Nat) : Option (List Node × List Node) :=
  if count ≤ w.stack.length then
    some ((w.stack.take count).reverse, w.stack.drop count)
  else none

/-- Pushes a node that may not exist. -/
def push? (w : Workbench) : Option Node → Answer × Workbench
  | none => (.nothing, w)
  | some node => w.push node

def run (w : Workbench) : Command → Except Failure (Answer × Workbench)
  | .pushAtom atom => .ok (w.push (.leaf atom))
  | .pushOperator c => .ok (w.push? ((Operator.ofChar? c).map Node.operator))
  | .pushToken token =>
    match token.atom? with
    | none => .ok (.rejected token, w)
    | some atom => .ok (w.push (.leaf atom))
  | .makeList count =>
    match w.pop? count with
    | none => .error .underflow
    | some (nodes, below) => .ok (push { w with stack := below } (.list nodes))
  | .duplicate =>
    match w.stack with
    | [] => .error .underflow
    | top :: _ => .ok (w.push top)
  | .child index =>
    match w.stack with
    | [] => .error .underflow
    | top :: _ => .ok (w.push? (top.children?.bind fun children => children[index]?))
  | .compare =>
    match w.stack with
    | a :: b :: _ => .ok (.verdict (a = b), w)
    | _ => .error .underflow
  | .leaves count =>
    match w.stack with
    | [] => .error .underflow
    | top :: _ => .ok (.atoms (top.leaves.nexts count), w)
  | .drop count =>
    match w.pop? count with
    | none => .error .underflow
    | some (_, below) => .ok (.nothing, { w with stack := below })
  | .makeTree count =>
    match w.pop? count with
    | none => .error .underflow
    | some (nodes, below) => .ok (.tree ⟨nodes⟩, ⟨below, ⟨nodes⟩⟩)
  | .read text options =>
    match Tree.read text options with
    | .error error => .error (.read error)
    | .ok tree => .ok (.tree tree, { w with tree := tree })
  | .form index => .ok (w.push? w.tree.forms[index]?)
  | .treeLeaves count => .ok (.atoms (w.tree.leaves.nexts count), w)
  | .listForms => .ok (.texts (w.tree.forms.map Node.text), w)
  | .takeForms => .ok (.nodes w.tree.forms, ⟨w.tree.forms.reverse ++ w.stack, .empty⟩)
  | .takeNode => .ok (push { w with tree := .empty } w.tree.toNode)

end Workbench

end SExpr
