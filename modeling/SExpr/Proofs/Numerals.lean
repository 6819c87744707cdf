import SExpr.Text.Decimal

/-!
Which runs of digits are the numerals that a printer writes. Writing the value of
a run drops its superfluous leading zeros and nothing else, so a run is written
as it was read exactly if it has none.
-/

namespace SExpr.Text

/-- A run of digits without its superfluous leading zeros. -/
def trimZeros : List Char → List Char
  | [] => []
  | [c] => [c]
  | c :: d :: run => if c = '0' then trimZeros (d :: run) else c :: d :: run

theorem length_trimZeros_le (run : List Char) : (trimZeros run).length ≤ run.length := by
  fun_induction trimZeros run with
  | case3 d run ih => exact Nat.le_succ_of_le ih
  | _ => exact Nat.le_refl _

theorem exists_digitChar {c : Char} (h : c.isDigit) : ∃ d < 10, c = d.digitChar := by
  have hlow : 48 ≤ c.toNat := (Char.isDigit_iff_toNat.1 h).1
  have hhigh : c.toNat ≤ 57 := (Char.isDigit_iff_toNat.1 h).2
  refine ⟨c.toNat - 48, by omega, ?_⟩
  rw [← Char.toNat_inj, Nat.toNat_digitChar_of_lt_ten (by omega)]
  omega

/-- Digits behind the numeral of a number that is not zero make a longer numeral. -/
theorem digits_append {n : Nat} (hn : 0 < n) {run : List Char} (h : ∀ c ∈ run, c.isDigit) :
    digits n ++ run = digits (Nat.ofDigitChars 10 run n) := by
  induction run generalizing n with
  | nil => simp
  | cons c run ih =>
      obtain ⟨d, hd, rfl⟩ := exists_digitChar (h c List.mem_cons_self)
      have hlonger : digits n ++ [d.digitChar] = digits (10 * n + d) := by
        rw [← Nat.toDigits_of_lt_base hd]
        exact Nat.toDigits_append_toDigits (by decide) hn hd
      rw [Nat.ofDigitChars_cons_digitChar_of_lt_ten hd, List.append_cons, hlonger]
      exact ih (by omega) fun c hc => h c (List.mem_cons_of_mem _ hc)

theorem digits_value_cons {c : Char} {run : List Char} (hc : c ≠ '0')
    (h : ∀ d ∈ c :: run, d.isDigit) : digits (value (c :: run)) = c :: run := by
  obtain ⟨d, hd, rfl⟩ := exists_digitChar (h c List.mem_cons_self)
  have hpos : 0 < d := Nat.pos_of_ne_zero fun hzero => hc (by simp [hzero])
  have hfirst : digits d = [d.digitChar] := Nat.toDigits_of_lt_base hd
  have hlonger := digits_append hpos fun c hc => h c (List.mem_cons_of_mem _ hc)
  rw [value, Nat.ofDigitChars_cons_digitChar_of_lt_ten hd, Nat.mul_zero, Nat.zero_add, ← hlonger,
    hfirst, List.singleton_append]

/-- What is written of a run of digits that was read. -/
theorem digits_value {run : List Char} (hne : run ≠ []) (h : ∀ c ∈ run, c.isDigit) :
    digits (value run) = trimZeros run := by
  fun_induction trimZeros run with
  | case1 => exact absurd rfl hne
  | case2 c =>
      by_cases hc : c = '0'
      · subst hc
        rfl
      · exact digits_value_cons hc h
  | case3 d run ih =>
      have hvalue : value ('0' :: d :: run) = value (d :: run) := by
        rw [value, value, Nat.ofDigitChars_cons]
        rfl
      rw [hvalue]
      exact ih (List.cons_ne_nil d run) fun c hc => h c (List.mem_cons_of_mem _ hc)
  | case4 c d run hc => exact digits_value_cons hc h

/-- A run is the numeral of its value if it has no superfluous leading zero. -/
theorem digits_value_eq_self_iff {run : List Char} (hne : run ≠ []) (h : ∀ c ∈ run, c.isDigit) :
    digits (value run) = run ↔ (2 ≤ run.length → run.head? ≠ some '0') := by
  rw [digits_value hne h]
  match run with
  | [] => exact absurd rfl hne
  | [c] => simp [trimZeros]
  | c :: d :: run =>
      by_cases hc : c = '0'
      · subst hc
        -- the zero is dropped, so what is left is shorter than the run
        have hshorter := length_trimZeros_le (d :: run)
        have hdropped : trimZeros (d :: run) ≠ '0' :: d :: run := by
          intro heq
          rw [heq, List.length_cons] at hshorter
          omega
        simpa [trimZeros] using hdropped
      · simp [trimZeros, hc]

end SExpr.Text
