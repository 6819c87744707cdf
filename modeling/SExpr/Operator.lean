/-!
The ten single-character operators. An operator and its character determine
each other, so a table of characters needs no second copy for reading.
-/

namespace SExpr

/-- Operators, in the order of their characters' code points. -/
inductive Operator where
  | bang
  | percent
  | star
  | plus
  | minus
  | lt
  | eq
  | gt
  | caret
  | tilde
  deriving DecidableEq

namespace Operator

def all : List Operator :=
  [bang, percent, star, plus, minus, lt, eq, gt, caret, tilde]

def toChar : Operator → Char
  | bang => '!'
  | percent => '%'
  | star => '*'
  | plus => '+'
  | minus => '-'
  | lt => '<'
  | eq => '='
  | gt => '>'
  | caret => '^'
  | tilde => '~'

/-- The operator written as `c`. -/
def ofChar? (c : Char) : Option Operator :=
  all.find? fun op => op.toChar = c

def text (op : Operator) : String := String.singleton op.toChar

theorem mem_all (op : Operator) : op ∈ all := by
  cases op <;> decide

@[simp] theorem ofChar?_toChar (op : Operator) : ofChar? op.toChar = some op := by
  cases op <;> decide

theorem toChar_injective {a b : Operator} (h : a.toChar = b.toChar) : a = b := by
  simpa using congrArg ofChar? h

@[simp] theorem toChar_inj {a b : Operator} : a.toChar = b.toChar ↔ a = b :=
  ⟨toChar_injective, congrArg toChar⟩

instance (c : Char) : Decidable (∃ op : Operator, op.toChar = c) :=
  decidable_of_iff (∃ op ∈ all, op.toChar = c) (by simp only [mem_all, true_and])

theorem toChar_of_ofChar? {c : Char} {op : Operator} (h : ofChar? c = some op) :
    op.toChar = c := by
  simpa using List.find?_some h

theorem ofChar?_eq_none_iff {c : Char} :
    ofChar? c = none ↔ ∀ op : Operator, op.toChar ≠ c := by
  simp [ofChar?, mem_all]

end Operator

end SExpr
