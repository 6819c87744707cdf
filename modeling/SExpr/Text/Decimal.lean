import SExpr.Word

/-!
Decimal notation. A run of digits is read by its value, whatever its length,
and a value is written with the fewest digits; `value_digits` is the exchange
law between the two.
-/

namespace SExpr.Text

/-- The digits of `n`, without leading zeros. -/
def digits (n : Nat) : List Char := Nat.toDigits 10 n

/-- The value of a run of decimal digits, most significant first. -/
def value (run : List Char) : Nat := Nat.ofDigitChars 10 run 0

@[simp] theorem value_digits (n : Nat) : value (digits n) = n :=
  Nat.ofDigitChars_toDigits (by decide) (by decide)

theorem isDigit_of_mem_digits {c : Char} {n : Nat} (h : c ∈ digits n) :
    c.isDigit = true :=
  Nat.isDigit_of_mem_toDigits (by decide) (by decide) h

theorem digits_ne_nil (n : Nat) : digits n ≠ [] := Nat.toDigits_ne_nil

theorem digits_injective {m n : Nat} (h : digits m = digits n) : m = n := by
  simpa using congrArg value h

/-- The 64-bit word a run of digits stands for, if its value fits. -/
def word? (run : List Char) : Option UInt64 := Word.ofNat? (value run)

@[simp] theorem word?_digits (w : UInt64) : word? (digits w.toNat) = some w := by
  simp [word?]

end SExpr.Text
