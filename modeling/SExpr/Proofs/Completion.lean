import SExpr.Proofs.Assembling

/-!
What more tokens make of a parse that failed. Where lists were left open, every closing
parenthesis behind the tokens finishes one of them, so the number that a parse reports is
the number of parentheses that are missing: fewer leave the other lists open, as many make
a tree, and the next one closes nothing. Where a token was refused, the tokens behind it
have not been looked at, and any others may stand there.
-/

namespace SExpr

namespace Assembly

/-- An assembly takes as many closing parentheses as lists are open. -/
theorem exists_takes_closeParens {options : Options} {index count : Nat} {a : Assembly}
    (h : count ≤ a.openLists) :
    ∃ next, Takes options index a (List.replicate count .closeParen) next ∧
      a.openLists = next.openLists + count := by
  induction count generalizing index a with
  | zero => exact ⟨a, .nil, rfl⟩
  | succ count ih =>
      have hopen : 0 < a.openLists := Nat.lt_of_lt_of_le (Nat.zero_lt_succ count) h
      obtain ⟨middle, hstep, hlists⟩ := exists_step_closeParen options index hopen
      have hcount : count ≤ middle.openLists := by omega
      obtain ⟨next, htakes, hnext⟩ := ih hcount
      exact ⟨next, .cons hstep htakes, by omega⟩

end Assembly

namespace Tree

open Assembly (Takes)

variable {tokens : List Token} {options : Options}

theorem ofTokens_eq_unclosedOpen_iff {n : Nat} :
    ofTokens tokens options = .error (.unclosedOpen n) ↔
      ∃ a, Takes options 0 .empty tokens a ∧ 0 < a.openLists ∧ n = a.openLists := by
  rw [ofTokens_eq_error_iff_takes]
  constructor
  · rintro (⟨a, htakes, hopen, herror⟩ | ⟨taken, token, rest, a, -, -, hrefuse⟩)
    · exact ⟨a, htakes, hopen, ParseError.unclosedOpen.inj herror⟩
    -- what refuses a token is another error
    · rcases Assembly.step_eq_error hrefuse with ⟨-, -, herror⟩ | ⟨limit, -, -, -, herror⟩
      · cases herror
      · cases herror
  · rintro ⟨a, htakes, hopen, rfl⟩
    exact .inl ⟨a, htakes, hopen, rfl⟩

/-! ### Lists that were left open -/

section

variable {n count : Nat}

/-- Closing parentheses behind the tokens of open lists are taken as long as a list is
open. -/
theorem exists_takes_of_unclosedOpen (h : ofTokens tokens options = .error (.unclosedOpen n))
    (hcount : count ≤ n) :
    ∃ a, Takes options 0 .empty (tokens ++ List.replicate count .closeParen) a ∧
      n = a.openLists + count := by
  obtain ⟨a, htakes, -, rfl⟩ := ofTokens_eq_unclosedOpen_iff.1 h
  obtain ⟨next, hclose, hlists⟩ := Assembly.exists_takes_closeParens hcount
  exact ⟨next, htakes.append hclose, hlists⟩

theorem ofTokens_of_fewer_closeParens (h : ofTokens tokens options = .error (.unclosedOpen n))
    (hcount : count < n) :
    ofTokens (tokens ++ List.replicate count .closeParen) options =
      .error (.unclosedOpen (n - count)) := by
  obtain ⟨a, htakes, hlists⟩ := exists_takes_of_unclosedOpen h (Nat.le_of_lt hcount)
  exact ofTokens_eq_unclosedOpen_iff.2 ⟨a, htakes, by omega, by omega⟩

theorem exists_ofTokens_of_closeParens (h : ofTokens tokens options = .error (.unclosedOpen n)) :
    ∃ t, ofTokens (tokens ++ List.replicate n .closeParen) options = .ok t := by
  obtain ⟨a, htakes, hlists⟩ := exists_takes_of_unclosedOpen h (Nat.le_refl n)
  exact ⟨_, ofTokens_eq_ok_iff.2 ⟨a, htakes, by omega, rfl⟩⟩

theorem ofTokens_of_more_closeParens (h : ofTokens tokens options = .error (.unclosedOpen n))
    (hcount : n < count) :
    ofTokens (tokens ++ List.replicate count .closeParen) options =
      .error (.unexpectedClose (tokens.length + n)) := by
  obtain ⟨a, htakes, hlists⟩ := exists_takes_of_unclosedOpen h (Nat.le_refl n)
  have hzero : a.openLists = 0 := by omega
  obtain ⟨more, rfl⟩ := Nat.exists_eq_add_of_lt hcount
  have hsplit : List.replicate (n + more + 1) Token.closeParen =
      List.replicate n .closeParen ++ .closeParen :: List.replicate more .closeParen := by
    rw [Nat.add_assoc, ← List.replicate_append_replicate, List.replicate_succ]
  have hplace : (tokens ++ List.replicate n Token.closeParen).length = tokens.length + n := by
    rw [List.length_append, List.length_replicate]
  rw [hsplit, ← List.append_assoc, ← hplace]
  exact ofTokens_eq_error_iff_takes.2 (.inr ⟨_, _, _, a, rfl, htakes,
    Assembly.step_closeParen_of_openLists_eq_zero options _ hzero⟩)

end

/-! ### Tokens that were refused -/

/-- The error of a token that is refused does not depend on the tokens behind it. -/
theorem ofTokens_of_prefix {error : ParseError} {index : Nat}
    (h : ofTokens tokens options = .error error)
    (herror : error = .unexpectedClose index ∨ ∃ limit, error = .nestingTooDeep limit index) :
    index < tokens.length ∧ ∀ other, tokens.take (index + 1) <+: other →
      ofTokens other options = .error error := by
  rcases ofTokens_eq_error_iff_takes.1 h with
    ⟨a, -, -, rfl⟩ | ⟨taken, token, rest, a, rfl, htakes, hrefuse⟩
  · simp at herror
  · obtain rfl : taken.length = index := by
      rcases Assembly.step_eq_error hrefuse with ⟨-, -, rfl⟩ | ⟨limit, -, -, -, rfl⟩
      · simpa using herror
      · simpa using herror
    refine ⟨by simp, ?_⟩
    rintro _ ⟨behind, rfl⟩
    have htake : (taken ++ token :: rest).take (taken.length + 1) ++ behind =
        taken ++ token :: behind := by
      rw [List.take_length_add_append, List.take_one, List.head?_cons, Option.toList_some,
        List.append_assoc, List.singleton_append]
    rw [htake]
    exact ofTokens_eq_error_iff_takes.2 (.inr ⟨taken, token, behind, a, rfl, htakes, hrefuse⟩)

/-- The number of open lists that a parse reports is the number of closing parentheses
that are missing behind the tokens: with fewer the others are still missing, with as many
there is a tree, and the next one is unexpected. The other errors are those of all tokens
that begin like these up to the token that is refused. -/
theorem ofTokens_error_of_continued (tokens : List Token) (options : Options) :
    (∀ n, ofTokens tokens options = .error (.unclosedOpen n) →
        (∀ count < n, ofTokens (tokens ++ List.replicate count .closeParen) options =
          .error (.unclosedOpen (n - count))) ∧
        (∃ t, ofTokens (tokens ++ List.replicate n .closeParen) options = .ok t) ∧
        ∀ count > n, ofTokens (tokens ++ List.replicate count .closeParen) options =
          .error (.unexpectedClose (tokens.length + n))) ∧
      ∀ error index, ofTokens tokens options = .error error →
        (error = .unexpectedClose index ∨ ∃ limit, error = .nestingTooDeep limit index) →
          index < tokens.length ∧ ∀ other, tokens.take (index + 1) <+: other →
            ofTokens other options = .error error := by
  refine ⟨fun n h => ?_, fun _ _ h herror => ofTokens_of_prefix h herror⟩
  exact ⟨fun _ hcount => ofTokens_of_fewer_closeParens h hcount,
    exists_ofTokens_of_closeParens h, fun _ hcount => ofTokens_of_more_closeParens h hcount⟩

/-- Two lists that are left open and five parentheses to close them, and a list too deep
for the limit with other tokens behind it. -/
theorem ofTokens_error_of_continued_nested :
    ofTokens [.openParen, .openParen] = .error (.unclosedOpen 2) ∧
      ofTokens ([.openParen, .openParen] ++ List.replicate 5 .closeParen) =
        .error (.unexpectedClose 4) ∧
      ofTokens [.openParen, .openParen] ⟨some 1⟩ = .error (.nestingTooDeep 1 1) ∧
      ofTokens [.openParen, .openParen, .closeParen, .closeParen] ⟨some 1⟩ =
        .error (.nestingTooDeep 1 1) := by
  have hopen : ofTokens [.openParen, .openParen] = .error (.unclosedOpen 2) := rfl
  have hdeep : ofTokens [.openParen, .openParen] ⟨some 1⟩ = .error (.nestingTooDeep 1 1) := rfl
  obtain ⟨-, -, hmore⟩ := (ofTokens_error_of_continued _ {}).1 2 hopen
  obtain ⟨-, hother⟩ := (ofTokens_error_of_continued _ ⟨some 1⟩).2 _ 1 hdeep (.inr ⟨1, rfl⟩)
  exact ⟨hopen, hmore 5 (by decide), hdeep, hother _ ⟨[.closeParen, .closeParen], rfl⟩⟩

end Tree

end SExpr
