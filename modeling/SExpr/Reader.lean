import SExpr.Assembly
import SExpr.Scanner

/-!
Reading a text: its tokens, and then the tree they stand for. A text whose
tokens cannot all be scanned is not parsed at all, so a scan error comes first
wherever the parentheses fail.
-/

namespace SExpr

def version : String := "0.1.0"

def Tree.read (text : String) (options : Options := {}) : Except ReadError Tree :=
  match scan text with
  | .error error => .error (.scan error)
  | .ok tokens =>
    match Tree.ofTokens tokens options with
    | .error error => .error (.parse error)
    | .ok tree => .ok tree

end SExpr
