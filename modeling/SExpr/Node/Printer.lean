import SExpr.Node.Basic

/-!
The text of a node. Forms are separated by one space; an operator at the end of
a sequence has no separator behind it and takes a space of its own, since an
operator is only read with a space.
-/

namespace SExpr

/-- What follows the last form of a sequence. -/
def Node.ending : Node → List Char
  | .leaf (.operator _) => [' ']
  | _ => []

mutual

def Node.chars : Node → List Char
  | .leaf atom => atom.chars
  | .list children => '(' :: (Forms.chars children ++ [')'])

def Forms.chars : List Node → List Char
  | [] => []
  | [form] => form.chars ++ form.ending
  | form :: next :: forms => form.chars ++ ' ' :: Forms.chars (next :: forms)

end

def Node.text (n : Node) : String := String.ofList n.chars

end SExpr
