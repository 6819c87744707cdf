import SExpr.Proofs.Limits

/-!
Reading two texts one behind the other. Where no run goes on from the first into
the second, the lexemes of the two together are those of the one and of the other;
and behind a first text that was read no list is open, so the tokens of the second
are refused as they would be by themselves. What the second text yields alone it
yields behind the first, only its errors stand further on.
-/

namespace SExpr

/-! ### Errors further on -/

/-- An error with its place so many characters further on. -/
def ScanError.shift (chars : Nat) (error : ScanError) : ScanError :=
  ⟨error.fault, chars + error.offset⟩

/-- An error with its place so many tokens further on; lists that were left open have none. -/
def ParseError.shift (tokens : Nat) : ParseError → ParseError
  | unexpectedClose index => unexpectedClose (tokens + index)
  | unclosedOpen unclosed => unclosedOpen unclosed
  | nestingTooDeep limit index => nestingTooDeep limit (tokens + index)

def ReadError.shift (chars tokens : Nat) : ReadError → ReadError
  | scan error => scan (error.shift chars)
  | parse error => parse (error.shift tokens)

/-! ### Scanning -/

theorem Placed.errors_row_add (chars offset : Nat) (lexemes : List Lexeme) :
    (row (chars + offset) lexemes).filterMap error? =
      ((row offset lexemes).filterMap error?).map (ScanError.shift chars) := by
  induction lexemes generalizing offset with
  | nil => rfl
  | cons lexeme lexemes ih =>
      rw [row, row, List.filterMap_cons, List.filterMap_cons, Nat.add_assoc, ih]
      cases hfault : lexeme.fault? <;> simp [error?, hfault, ScanError.shift]

theorem scanErrors_append {as bs : List Char}
    (h : Lexeme.ofChars (as ++ bs) = Lexeme.ofChars as ++ Lexeme.ofChars bs) :
    scanErrors (as ++ bs) = scanErrors as ++ (scanErrors bs).map (ScanError.shift as.length) := by
  have hbehind := Placed.errors_row_add as.length 0 (Lexeme.ofChars bs)
  rw [scanErrors, h, Placed.row_append, List.filterMap_append, Lexeme.flatMap_chars_ofChars,
    Nat.zero_add, ← Nat.add_zero as.length, hbehind]
  rfl

theorem scanTokens_append {as bs : List Char}
    (h : Lexeme.ofChars (as ++ bs) = Lexeme.ofChars as ++ Lexeme.ofChars bs) :
    scanTokens (as ++ bs) = scanTokens as ++ scanTokens bs := by
  rw [scanTokens, h, List.filterMap_append]
  rfl

theorem scan_append {a b : String} {tokens : List Token} (ha : scan a = .ok tokens)
    (hseam : ∀ x ∈ a.toList.getLast?, ∀ y ∈ b.toList.head?, ¬ Joins x y) :
    scan (a ++ b) =
      match scan b with
      | .ok more => .ok (tokens ++ more)
      | .error error => .error (error.shift a.length) := by
  obtain ⟨hnone, htokens⟩ := scan_eq_ok_iff.1 ha
  have hspells : Spells a.toList tokens := scan_eq_ok_iff_spells.1 ha
  have hchars := hspells.ofChars_append hseam
  have herrors := scanErrors_append hchars
  rw [hnone, List.nil_append, ← String.toList_append, String.length_toList] at herrors
  cases hb : scanErrors b.toList with
  | nil =>
      rw [hb] at herrors
      rw [scan_of_scanErrors_nil hb, scan_of_scanErrors_nil herrors, String.toList_append,
        scanTokens_append hchars, htokens]
  | cons error errors =>
      rw [hb] at herrors
      rw [scan_of_scanErrors_cons hb, scan_of_scanErrors_cons herrors]

/-! ### Parsing -/

namespace RefusedAt

variable {options : Options} {first second : List Token} {index : Nat} {error : ParseError}

/-- Tokens behind a token have no part in its refusal. -/
theorem append_iff (hindex : index < first.length) :
    RefusedAt options (first ++ second) index error ↔ RefusedAt options first index error := by
  have htoken : (first ++ second)[index]? = first[index]? := List.getElem?_append_left hindex
  have htake : (first ++ second).take index = first.take index :=
    List.take_append_of_le_length (Nat.le_of_lt hindex)
  constructor
  · rintro (⟨hclose, hheight⟩ | ⟨hlimit, hopen, hheight⟩)
    · exact .unexpectedClose (htoken ▸ hclose) (htake ▸ hheight)
    · exact .nestingTooDeep hlimit (htoken ▸ hopen) (htake ▸ hheight)
  · rintro (⟨hclose, hheight⟩ | ⟨hlimit, hopen, hheight⟩)
    · exact .unexpectedClose (htoken ▸ hclose) (htake ▸ hheight)
    · exact .nestingTooDeep hlimit (htoken ▸ hopen) (htake ▸ hheight)

/-- Behind tokens that leave no list open, a token is refused as it would be without
them. -/
theorem shift_iff (hheight : height first = 0) :
    RefusedAt options (first ++ second) (first.length + index) error ↔
      ∃ own, RefusedAt options second index own ∧ error = own.shift first.length := by
  have htoken : (first ++ second)[first.length + index]? = second[index]? := by
    simp [List.getElem?_append_right]
  have htake : height ((first ++ second).take (first.length + index)) =
      height (second.take index) := by
    rw [List.take_length_add_append, height_append, hheight, Int.zero_add]
  constructor
  · rintro (⟨hclose, hzero⟩ | ⟨hlimit, hopen, hmost⟩)
    · exact ⟨_, .unexpectedClose (htoken ▸ hclose) (htake ▸ hzero), rfl⟩
    · exact ⟨_, .nestingTooDeep hlimit (htoken ▸ hopen) (htake ▸ hmost), rfl⟩
  · rintro ⟨own, ⟨hclose, hzero⟩ | ⟨hlimit, hopen, hmost⟩, rfl⟩
    · exact .unexpectedClose (htoken.trans hclose) (htake.trans hzero)
    · exact .nestingTooDeep hlimit (htoken.trans hopen) (htake.trans hmost)

/-- Behind tokens that are all taken and leave no list open, nothing is refused before
the place where something is refused without them. -/
theorem not_append {count : Nat} (hfirst : ∀ index error, ¬ RefusedAt options first index error)
    (hheight : height first = 0)
    (hsecond : ∀ index < count, ∀ error, ¬ RefusedAt options second index error) :
    ∀ index < first.length + count, ∀ error,
      ¬ RefusedAt options (first ++ second) index error := by
  intro index hindex error hrefused
  by_cases hplace : index < first.length
  · exact hfirst index error ((append_iff hplace).1 hrefused)
  · obtain ⟨place, rfl⟩ := Nat.exists_eq_add_of_le (Nat.le_of_not_lt hplace)
    obtain ⟨own, hown, -⟩ := (shift_iff hheight).1 hrefused
    exact hsecond place (by omega) own hown

end RefusedAt

namespace Tree

variable {options : Options}

/-- Tokens that parse are all taken and leave no list open. -/
theorem not_refusedAt_of_ofTokens {tokens : List Token} {t : Tree}
    (h : ofTokens tokens options = .ok t) :
    (∀ index error, ¬ RefusedAt options tokens index error) ∧ height tokens = 0 := by
  rcases ofTokens_cases tokens options with
    ⟨index, error, herror, -⟩ | ⟨hnone, ⟨n, -, -, herror⟩ | ⟨hheight, -⟩⟩
  · cases h.symm.trans herror
  · cases h.symm.trans herror
  · exact ⟨hnone, hheight⟩

theorem ofTokens_append {first second : List Token} {t : Tree}
    (h : ofTokens first options = .ok t) :
    ofTokens (first ++ second) options =
      match ofTokens second options with
      | .ok u => .ok ⟨t.forms ++ u.forms⟩
      | .error error => .error (error.shift first.length) := by
  obtain ⟨hfirst, hheight⟩ := not_refusedAt_of_ofTokens h
  rcases ofTokens_cases second options with
    ⟨index, error, hparse, hrefused, hearlier⟩ |
      ⟨hnone, ⟨n, hpos, hopen, hparse⟩ | ⟨-, u, hparse⟩⟩
  · rw [hparse]
    refine ofTokens_eq_error_iff.2 (.inl ⟨first.length + index, ?_, ?_⟩)
    · exact (RefusedAt.shift_iff hheight).2 ⟨error, hrefused, rfl⟩
    · exact RefusedAt.not_append hfirst hheight hearlier
  · rw [hparse]
    refine ofTokens_eq_error_iff.2 (.inr ⟨fun index => ?_, n, hpos, ?_, rfl⟩)
    · have hsecond : ∀ place < index + 1, ∀ error, ¬ RefusedAt options second place error :=
        fun place _ => hnone place
      exact RefusedAt.not_append hfirst hheight hsecond index (by omega)
    · rw [height_append, hheight, hopen, Int.zero_add]
  · rw [hparse]
    obtain ⟨ht, htdepth⟩ := ofTokens_eq_ok_iff_depth.1 h
    obtain ⟨hu, hudepth⟩ := ofTokens_eq_ok_iff_depth.1 hparse
    refine ofTokens_eq_ok_iff_depth.2 ⟨?_, fun limit hlimit => ?_⟩
    · rw [Tree.tokens, Forms.tokens_append, ← ht, ← hu]
      rfl
    · rw [Tree.depth, Forms.depth_append]
      exact Nat.max_le.2 ⟨htdepth limit hlimit, hudepth limit hlimit⟩

/-! ### Reading -/

/-- A text behind one that was read is read as by itself, unless a run goes on from
the one into the other: its forms come behind those of the first, and its error stands
as many characters or tokens further on as the first text has. -/
theorem read_append {a b : String} {t : Tree} (ha : read a options = .ok t)
    (hseam : ∀ x ∈ a.toList.getLast?, ∀ y ∈ b.toList.head?, ¬ Joins x y) :
    ∃ tokens, scan a = .ok tokens ∧
      read (a ++ b) options =
        match read b options with
        | .ok u => .ok ⟨t.forms ++ u.forms⟩
        | .error error => .error (error.shift a.length tokens.length) := by
  obtain ⟨tokens, hscan, hparse⟩ := read_eq_ok_iff.1 ha
  refine ⟨tokens, hscan, ?_⟩
  have hboth := scan_append hscan hseam
  cases hb : scan b with
  | error error =>
      rw [hb] at hboth
      simp only [read, hboth, hb]
      rfl
  | ok more =>
      rw [hb] at hboth
      simp only [read, hboth, hb, ofTokens_append hparse]
      cases ofTokens more options <;> rfl

/-- A run of digits and a run of letters side by side; the parenthesis that closes no
list is the third token of the whole. -/
theorem read_append_digits_letters :
    read "12" = .ok ⟨[.integer 12]⟩ ∧
      read ("12" ++ "ab)") = .error (.parse (.unexpectedClose 2)) := by
  have hread : read "12" = .ok ⟨[.integer 12]⟩ := by decide +kernel
  have hclose : read "ab)" = .error (.parse (.unexpectedClose 1)) := by decide +kernel
  have hseam : ∀ x ∈ "12".toList.getLast?, ∀ y ∈ "ab)".toList.head?, ¬ Joins x y := by
    simp [Joins]
  obtain ⟨tokens, hscan, hboth⟩ := read_append hread hseam
  have htokens : scan "12" = .ok [.atom (.integer 12)] := by decide +kernel
  cases hscan.symm.trans htokens
  refine ⟨hread, ?_⟩
  rw [hboth, hclose]
  rfl

end Tree

end SExpr
