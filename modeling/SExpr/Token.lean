import SExpr.Operator
import SExpr.Text.Decimal

/-!
Tokens. A token is a parenthesis, which only delimits structure, or an atom,
which a leaf of a tree carries. The text of a symbol is not restricted here:
trees built by hand may hold symbols that no text reads as.
-/

namespace SExpr

inductive Atom where
  | symbol (text : String)
  | integer (value : UInt64)
  | operator (op : Operator)
  deriving DecidableEq

inductive Token where
  | openParen
  | closeParen
  | atom (atom : Atom)
  deriving DecidableEq

namespace Atom

/-- The written form of an atom; an operator's terminating space is not part of it. -/
def chars : Atom → List Char
  | symbol text => text.toList
  | integer value => Text.digits value.toNat
  | operator op => [op.toChar]

def text (a : Atom) : String := String.ofList a.chars

end Atom

namespace Token

def chars : Token → List Char
  | openParen => ['(']
  | closeParen => [')']
  | atom a => a.chars

def text (t : Token) : String := String.ofList t.chars

def atom? : Token → Option Atom
  | openParen => none
  | closeParen => none
  | atom a => some a

/-- Whether a token only delimits structure. -/
def isStructural (t : Token) : Bool := t.atom?.isNone

theorem atom?_eq_some_iff {t : Token} {a : Atom} : t.atom? = some a ↔ t = atom a := by
  cases t <;> simp [atom?]

end Token

end SExpr
