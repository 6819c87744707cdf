import SExpr.Text.Standalone

/-!
A character in messages: between apostrophes, by itself where it can stand by
itself, and otherwise by a backslash and a letter or by its code point.
-/

namespace SExpr.Text

def apostrophe : Char := '\x27'

def backslash : Char := '\x5c'

/-- The characters with a two-character escape, and its second character. -/
def escapes : List (Char × Char) :=
  [('\x00', '0'), ('\t', 't'), ('\n', 'n'), ('\r', 'r'),
   (apostrophe, apostrophe), (backslash, backslash)]

/-- The code point of `c` in lower-case hexadecimal, without leading zeros. -/
def codePoint (c : Char) : List Char := Nat.toDigits 16 c.toNat

/-- A character as it stands between the apostrophes. -/
def escape (c : Char) : List Char :=
  match escapes.lookup c with
  | some letter => [backslash, letter]
  | none =>
    if isStandalone c then [c]
    else backslash :: 'u' :: '\x7b' :: (codePoint c ++ ['\x7d'])

def quote (c : Char) : List Char :=
  apostrophe :: (escape c ++ [apostrophe])

end SExpr.Text
