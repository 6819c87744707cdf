import SExpr.Proofs.Limits

/-!
The metrics of a parsed tree, by the tokens it was parsed from. A parse keeps the tokens, so
each metric of the tree is one of its own tokens: the leaves are the tokens that are no
parentheses, the depth is the greatest height, and a form of the top level starts where a
token other than a closing parenthesis stands at height zero. The last holds form by form,
since the tokens within a list stand above the height of the list.
-/

namespace SExpr

/-! ### Where forms start -/

/-- The number of tokens, other than closing parentheses, that stand at height zero when the
first token stands at height `base`. -/
def formStarts (base : Int) (tokens : List Token) : Nat :=
  (List.range tokens.length).countP fun place =>
    tokens[place]? ≠ some .closeParen ∧ base + height (tokens.take place) = 0

@[simp] theorem formStarts_nil (base : Int) : formStarts base [] = 0 := rfl

theorem formStarts_append (base : Int) (as bs : List Token) :
    formStarts base (as ++ bs) = formStarts base as + formStarts (base + height as) bs := by
  rw [formStarts, List.length_append, List.range_add, List.countP_append, List.countP_map]
  congr 1
  · apply List.countP_congr
    intro place hplace
    have hlt : place < as.length := List.mem_range.1 hplace
    rw [List.getElem?_append_left hlt, List.take_append_of_le_length (Nat.le_of_lt hlt)]
  · apply List.countP_congr
    intro place _
    show decide _ = true ↔ _
    rw [List.getElem?_append_right (Nat.le_add_right _ _), List.take_length_add_append,
      Nat.add_sub_cancel_left, height_append, Int.add_assoc]

theorem formStarts_singleton (base : Int) (token : Token) :
    formStarts base [token] = if token ≠ .closeParen ∧ base = 0 then 1 else 0 := by
  simp [formStarts, List.range_succ]

/-- No form of the top level starts within a list. -/
theorem formStarts_of_pos {base : Int} {tokens : List Token} (hbase : 0 < base)
    (h : ∀ taken, taken <+: tokens → 0 ≤ height taken) : formStarts base tokens = 0 := by
  apply List.countP_eq_zero.2
  intro place _ hstart
  have hheight := h _ (List.take_prefix place tokens)
  have hzero : base + height (tokens.take place) = 0 := (of_decide_eq_true hstart).2
  omega

theorem Node.formStarts_tokens (n : Node) : formStarts 0 n.tokens = 1 := by
  cases n with
  | leaf atom =>
      rw [Node.tokens, formStarts_singleton]
      rfl
  | list children =>
      have hinside : formStarts (0 + height [.openParen]) (Forms.tokens children) = 0 :=
        formStarts_of_pos (by decide) (Forms.balanced_tokens children).1
      rw [Node.tokens, ← List.singleton_append, formStarts_append, formStarts_append, hinside,
        (Forms.balanced_tokens children).2, formStarts_singleton, formStarts_singleton]
      rfl

theorem Forms.formStarts_tokens (forms : List Node) :
    formStarts 0 (Forms.tokens forms) = forms.length := by
  induction forms with
  | nil => rfl
  | cons form forms ih =>
      rw [Forms.tokens, formStarts_append, form.formStarts_tokens, form.height_tokens,
        Int.add_zero, ih, List.length_cons, Nat.add_comm]

/-! ### Atoms among the tokens -/

/-- The tokens that are no parentheses are those that have an atom. -/
theorem map_atom?_filter (tokens : List Token) :
    (tokens.filter fun token => !token.isStructural).map Token.atom? =
      (tokens.filterMap Token.atom?).map some := by
  have hsome (token : Token) : (!token.isStructural) = token.atom?.isSome :=
    Option.not_isNone _
  simp only [hsome]
  rw [List.map_filterMap_some_eq_filter_map_isSome, List.filter_map]
  rfl

namespace Tree

/-- What a parse measures follows the tokens: its leaves are the tokens that are no
parentheses, one by one and in their order, its depth is the greatest height of a prefix,
and its forms are as many as the tokens, other than closing parentheses, at height zero. -/
theorem metrics_of_ofTokens {tokens : List Token} {options : Options} {t : Tree}
    (h : ofTokens tokens options = .ok t) :
    (tokens.filter fun token => !token.isStructural).map Token.atom? =
        t.leaves.toList.map some ∧
      t.leafCount = tokens.countP (fun token => !token.isStructural) ∧
        IsGreatest (profile height tokens) t.depth ∧ t.size = formStarts 0 tokens := by
  obtain rfl : t.tokens = tokens := tokens_of_ofTokens h
  have hatoms : (t.tokens.filter fun token => !token.isStructural).map Token.atom? =
      t.atoms.map some := by
    rw [map_atom?_filter, Tree.tokens, Forms.filterMap_atom?_tokens]
    rfl
  refine ⟨?_, ?_, t.isGreatest_depth, ?_⟩
  · rw [hatoms, Leaves.toList_eq]
    rfl
  · rw [List.countP_eq_length_filter, ← List.length_map Token.atom?, hatoms, List.length_map]
    exact Leaves.count_eq _
  · exact (Forms.formStarts_tokens t.forms).symm

/-- The metrics of a list in a list and a number behind them, under a limit they just keep. -/
theorem metrics_of_ofTokens_nested :
    ∃ t, ofTokens [.openParen, .atom (.symbol "a"), .openParen, .closeParen, .closeParen,
        .atom (.integer 7)] ⟨some 2⟩ = .ok t ∧
      IsGreatest (profile height [.openParen, .atom (.symbol "a"), .openParen, .closeParen,
        .closeParen, .atom (.integer 7)]) t.depth ∧
      t.size = formStarts 0 [.openParen, .atom (.symbol "a"), .openParen, .closeParen,
        .closeParen, .atom (.integer 7)] := by
  have hparse : ofTokens [.openParen, .atom (.symbol "a"), .openParen, .closeParen, .closeParen,
      .atom (.integer 7)] ⟨some 2⟩ =
        .ok ⟨[.list [.symbol "a", .list []], .integer 7]⟩ := by
    decide +kernel
  obtain ⟨-, -, hdepth, hsize⟩ := metrics_of_ofTokens hparse
  exact ⟨_, hparse, hdepth, hsize⟩

end Tree

end SExpr
