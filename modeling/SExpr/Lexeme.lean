import SExpr.Error

/-!
Lexemes. Every text is, in exactly one way, a sequence of the lexemes taken
from its front: `split_chars` says that a lexeme and what is left of the text
make up the text again. What a lexeme means is a second question, and only
that one can fail.
-/

namespace SExpr

/-- A part of a text that is read as one piece. -/
inductive Lexeme where
  | blank
  | openParen
  | closeParen
  /-- A maximal run of letters. -/
  | letters (run : List Char)
  /-- A maximal run of digits. -/
  | digits (run : List Char)
  /-- An operator together with the space that terminates it. -/
  | operator (op : Operator)
  /-- An operator that no space follows. -/
  | bareOperator (op : Operator)
  /-- A character outside the alphabet. -/
  | foreign (c : Char)
  deriving DecidableEq

namespace Lexeme

/-- The part of the text that a lexeme takes up. -/
def chars : Lexeme → List Char
  | blank => [' ']
  | openParen => ['(']
  | closeParen => [')']
  | letters run => run
  | digits run => run
  | operator op => [op.toChar, ' ']
  | bareOperator op => [op.toChar]
  | foreign c => [c]

/-- The token of a lexeme, if it has one and nothing is wrong with it. -/
def token? : Lexeme → Except ScanFault (Option Token)
  | blank => .ok none
  | openParen => .ok (some .openParen)
  | closeParen => .ok (some .closeParen)
  | letters run => .ok (some (.atom (.symbol (String.ofList run))))
  | digits run =>
    match Text.word? run with
    | some value => .ok (some (.atom (.integer value)))
    | none => .error (.outOfRange (String.ofList run))
  | operator op => .ok (some (.atom (.operator op)))
  | bareOperator op => .error (.unterminated op)
  | foreign c => .error (.unrecognized c)

/-- The first lexeme of the text `c :: rest`, and what is left of the text. -/
def split (c : Char) (rest : List Char) : Lexeme × List Char :=
  if c = ' ' then (blank, rest)
  else if c = '(' then (openParen, rest)
  else if c = ')' then (closeParen, rest)
  else if c.isDigit then (digits (c :: rest.takeWhile Char.isDigit), rest.dropWhile Char.isDigit)
  else if c.isAlpha then (letters (c :: rest.takeWhile Char.isAlpha), rest.dropWhile Char.isAlpha)
  else
    match Operator.ofChar? c, rest with
    | some op, ' ' :: rest => (operator op, rest)
    | some op, rest => (bareOperator op, rest)
    | none, rest => (foreign c, rest)

/-- A lexeme and the text after it are the text it was split from. -/
theorem split_chars (c : Char) (rest : List Char) :
    (split c rest).1.chars ++ (split c rest).2 = c :: rest := by
  unfold split
  split
  · simp [chars, *]
  split
  · simp [chars, *]
  split
  · simp [chars, *]
  split
  · simp [chars, List.takeWhile_append_dropWhile]
  split
  · simp [chars, List.takeWhile_append_dropWhile]
  split
  · simp [chars, Operator.toChar_of_ofChar? ‹_›]
  · simp [chars, Operator.toChar_of_ofChar? ‹_›]
  · simp [chars]

theorem chars_split_ne_nil (c : Char) (rest : List Char) :
    (split c rest).1.chars ≠ [] := by
  unfold split
  repeat' split
  all_goals simp [chars]

/-- What is left is shorter, so splitting comes to an end. -/
theorem length_split_lt (c : Char) (rest : List Char) :
    (split c rest).2.length < (c :: rest).length := by
  have h := congrArg List.length (split_chars c rest)
  have := List.length_pos_iff.2 (chars_split_ne_nil c rest)
  rw [List.length_append] at h
  omega

end Lexeme

end SExpr
