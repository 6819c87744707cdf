import SExpr.Serial.Value
import SExpr.Tree

/-!
Operators, atoms, tokens, nodes and trees as values of the interchange format.
Each type has an `encode` and a `decode?`; decoding also takes a variant that
holds nothing when it is written as an object with null behind its name.
-/

namespace SExpr

namespace Operator

def name : Operator → String
  | bang => "Bang"
  | percent => "Percent"
  | star => "Star"
  | plus => "Plus"
  | minus => "Minus"
  | lt => "Lt"
  | eq => "Eq"
  | gt => "Gt"
  | caret => "Caret"
  | tilde => "Tilde"

def ofName? (name : String) : Option Operator :=
  all.find? fun op => op.name = name

def encode (op : Operator) : Value := .unit op.name

def decode? (v : Value) : Option Operator :=
  match v.variant? with
  | some (name, .null) => ofName? name
  | _ => none

@[simp] theorem ofName?_name (op : Operator) : ofName? op.name = some op := by
  cases op <;> decide

@[simp] theorem decode?_encode (op : Operator) : decode? op.encode = some op := by
  simp [decode?, encode]

end Operator

namespace Atom

def encode : Atom → Value
  | symbol text => .tagged "Symbol" (.string text)
  | integer value => .tagged "Integer" (.natural value.toNat)
  | operator op => .tagged "Operator" op.encode

def decode? (v : Value) : Option Atom :=
  match v.variant? with
  | some ("Symbol", content) => content.text?.map symbol
  | some ("Integer", content) => content.word?.map integer
  | some ("Operator", content) => (Operator.decode? content).map operator
  | _ => none

@[simp] theorem decode?_encode (a : Atom) : decode? a.encode = some a := by
  cases a with
  | symbol text => rfl
  | integer value =>
      simp [decode?, encode, Value.word?_eq_some_iff]
  | operator op => simp [decode?, encode]

end Atom

namespace Token

def encode : Token → Value
  | openParen => .unit "Open"
  | closeParen => .unit "Close"
  | atom a => a.encode

def decode? (v : Value) : Option Token :=
  match v.variant? with
  | some ("Open", .null) => some openParen
  | some ("Close", .null) => some closeParen
  | _ => (Atom.decode? v).map atom

end Token

mutual

def Node.encode : Node → Value
  | .leaf atom => .tagged "Leaf" atom.encode
  | .list children => .tagged "List" (.array (Forms.encode children))

def Forms.encode : List Node → List Value
  | [] => []
  | form :: forms => form.encode :: Forms.encode forms

end

mutual

def Node.decode? : Value → Option Node
  | .object [("Leaf", content)] => (Atom.decode? content).map .leaf
  | .object [("List", .array items)] => (Forms.decode? items).map .list
  | _ => none

def Forms.decode? : List Value → Option (List Node)
  | [] => some []
  | item :: items =>
    match Node.decode? item, Forms.decode? items with
    | some form, some forms => some (form :: forms)
    | _, _ => none

end

namespace Tree

def encode (t : Tree) : Value := .array (Forms.encode t.forms)

def decode? : Value → Option Tree
  | .array items => (Forms.decode? items).map mk
  | _ => none

end Tree

end SExpr
