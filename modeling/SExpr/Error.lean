import SExpr.Text.Quoted
import SExpr.Token

/-!
Why a text is no tree, and the message that says so. A scan error is a fault
of one lexeme together with the place of the lexeme; offsets count characters
of the text and indexes count tokens, both from 0.
-/

namespace SExpr

/-- What is wrong with one lexeme. -/
inductive ScanFault where
  /-- A character outside the alphabet. -/
  | unrecognized (c : Char)
  /-- An operator that no space follows. -/
  | unterminated (op : Operator)
  /-- A run of digits whose value is no 64-bit word, as it is written. -/
  | outOfRange (literal : String)
  deriving DecidableEq

structure ScanError where
  fault : ScanFault
  offset : Nat
  deriving DecidableEq

inductive ParseError where
  /-- A closing parenthesis where no list is open. -/
  | unexpectedClose (index : Nat)
  /-- The tokens end while lists are open. -/
  | unclosedOpen (unclosed : Nat)
  /-- An opening parenthesis where as many lists as allowed are open. -/
  | nestingTooDeep (limit index : Nat)
  deriving DecidableEq

inductive ReadError where
  | scan (error : ScanError)
  | parse (error : ParseError)
  deriving DecidableEq

def ScanError.message : ScanError → String
  | ⟨.unrecognized c, offset⟩ =>
      "Unrecognized character " ++ String.ofList (Text.quote c) ++ " at offset " ++
        String.ofList (Text.digits offset)
  | ⟨.unterminated op, offset⟩ =>
      "Operator " ++ String.ofList [Text.apostrophe, op.toChar, Text.apostrophe] ++
        " at offset " ++ String.ofList (Text.digits offset) ++ " must be followed by a space"
  | ⟨.outOfRange literal, offset⟩ =>
      "Integer literal " ++ literal ++ " at offset " ++
        String.ofList (Text.digits offset) ++ " does not fit in 64 bits"

def ParseError.message : ParseError → String
  | .unexpectedClose index =>
      "Unbalanced parentheses: unexpected `)` at token " ++ String.ofList (Text.digits index)
  | .unclosedOpen unclosed =>
      "Unbalanced parentheses: " ++ String.ofList (Text.digits unclosed) ++
        " list(s) left open at end of input"
  | .nestingTooDeep limit index =>
      "Nesting depth exceeds the limit of " ++ String.ofList (Text.digits limit) ++
        " at token " ++ String.ofList (Text.digits index)

def ReadError.message : ReadError → String
  | .scan error => error.message
  | .parse error => error.message

end SExpr
