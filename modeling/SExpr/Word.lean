/-!
Natural numbers that fit in a 64-bit word.
-/

namespace SExpr.Word

def ofNat? (n : Nat) : Option UInt64 :=
  if h : n < UInt64.size then some (UInt64.ofNatLT n h) else none

theorem ofNat?_eq_some_iff {n : Nat} {w : UInt64} : ofNat? n = some w ↔ n = w.toNat := by
  unfold ofNat?
  split
  case isTrue h => simp [← UInt64.toNat_inj]
  case isFalse h =>
    simp only [reduceCtorEq, false_iff]
    exact fun hn => h (hn ▸ w.toNat_lt)

theorem ofNat?_eq_none_iff {n : Nat} : ofNat? n = none ↔ UInt64.size ≤ n := by
  simp [ofNat?]

@[simp] theorem ofNat?_toNat (w : UInt64) : ofNat? w.toNat = some w :=
  ofNat?_eq_some_iff.2 rfl

end SExpr.Word
