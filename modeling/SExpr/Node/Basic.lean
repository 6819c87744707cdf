import SExpr.Token

/-!
Nodes: an atom, or a list of nodes. What is defined by recursion on nodes is
defined together with its counterpart on a sequence of nodes, the forms of a
list or of a tree; the counterpart has the same name in the namespace `Forms`.
-/

namespace SExpr

inductive Node where
  | leaf (atom : Atom)
  | list (children : List Node)

mutual

def Node.decEq : ∀ a b : Node, Decidable (a = b)
  | .leaf a, .leaf b =>
    match (inferInstance : Decidable (a = b)) with
    | isTrue h => isTrue (congrArg Node.leaf h)
    | isFalse h => isFalse fun heq => h (Node.leaf.inj heq)
  | .list as, .list bs =>
    match Forms.decEq as bs with
    | isTrue h => isTrue (congrArg Node.list h)
    | isFalse h => isFalse fun heq => h (Node.list.inj heq)
  | .leaf _, .list _ => isFalse nofun
  | .list _, .leaf _ => isFalse nofun

def Forms.decEq : ∀ as bs : List Node, Decidable (as = bs)
  | [], [] => isTrue rfl
  | [], _ :: _ => isFalse nofun
  | _ :: _, [] => isFalse nofun
  | a :: as, b :: bs =>
    match Node.decEq a b with
    | isFalse h => isFalse fun heq => h (List.cons.inj heq).1
    | isTrue h =>
      match Forms.decEq as bs with
      | isFalse hs => isFalse fun heq => hs (List.cons.inj heq).2
      | isTrue hs => isTrue (h ▸ hs ▸ rfl)

end

instance : DecidableEq Node := Node.decEq

mutual

/-- The number of nodes in a node, itself included. -/
def Node.size : Node → Nat
  | .leaf _ => 1
  | .list children => 1 + Forms.size children

def Forms.size : List Node → Nat
  | [] => 0
  | form :: forms => form.size + Forms.size forms

end

@[simp] theorem Forms.size_append (as bs : List Node) :
    Forms.size (as ++ bs) = Forms.size as + Forms.size bs := by
  induction as with
  | nil => simp [Forms.size]
  | cons form as ih => simp [Forms.size, ih, Nat.add_assoc]

@[simp] theorem Forms.size_reverse (forms : List Node) :
    Forms.size forms.reverse = Forms.size forms := by
  induction forms with
  | nil => rfl
  | cons form forms ih => simp [Forms.size, ih, Nat.add_comm]

mutual

/-- The atoms of a node, left to right. -/
def Node.atoms : Node → List Atom
  | .leaf atom => [atom]
  | .list children => Forms.atoms children

def Forms.atoms : List Node → List Atom
  | [] => []
  | form :: forms => form.atoms ++ Forms.atoms forms

end

@[simp] theorem Forms.atoms_append (as bs : List Node) :
    Forms.atoms (as ++ bs) = Forms.atoms as ++ Forms.atoms bs := by
  induction as with
  | nil => simp [Forms.atoms]
  | cons form as ih => simp [Forms.atoms, ih]

mutual

/-- The tokens that a node is built from. -/
def Node.tokens : Node → List Token
  | .leaf atom => [.atom atom]
  | .list children => .openParen :: (Forms.tokens children ++ [.closeParen])

def Forms.tokens : List Node → List Token
  | [] => []
  | form :: forms => form.tokens ++ Forms.tokens forms

end

@[simp] theorem Forms.tokens_append (as bs : List Node) :
    Forms.tokens (as ++ bs) = Forms.tokens as ++ Forms.tokens bs := by
  induction as with
  | nil => simp [Forms.tokens]
  | cons form as ih => simp [Forms.tokens, ih]

namespace Node

def atom? : Node → Option Atom
  | leaf atom => some atom
  | list _ => none

def children? : Node → Option (List Node)
  | leaf _ => none
  | list children => some children

def isLeaf : Node → Bool
  | leaf _ => true
  | list _ => false

def symbol (text : String) : Node := leaf (.symbol text)

def integer (value : UInt64) : Node := leaf (.integer value)

def operator (op : Operator) : Node := leaf (.operator op)

end Node

end SExpr
