import SExpr.Tree

/-!
The text of a tree, token by token. A printer goes through a tree and knows of
each form whether it is the last of its list; the same text comes about if one
only looks at two neighbouring tokens: one space stands between a token that ends
a form and a token that begins one, and an operator brings its space along.
-/

namespace SExpr

namespace Token

/-- The text of a token, with the space that an operator brings along. -/
def written : Token → List Char
  | atom (.operator op) => [op.toChar, ' ']
  | token => token.chars

/-- Whether a form ends with the token, and no space comes with it. -/
def ends : Token → Bool
  | openParen => false
  | closeParen => true
  | atom (.operator _) => false
  | atom _ => true

/-- Whether a form begins with the token. -/
def begins : Token → Bool
  | closeParen => false
  | _ => true

end Token

/-- Tokens written one behind the other; a space is due before the first form if
a form has just ended. -/
def layout (due : Bool) : List Token → List Char
  | [] => []
  | token :: tokens =>
      (if due && token.begins then [' '] else []) ++ (token.written ++ layout token.ends tokens)

/-- Where no form begins, no space is due. -/
theorem layout_of_not_begins {tokens : List Token}
    (h : ∀ token ∈ tokens.head?, token.begins = false) (due : Bool) :
    layout due tokens = layout false tokens := by
  cases tokens with
  | nil => rfl
  | cons token tokens =>
      have hbegins : token.begins = false := h token rfl
      simp [layout, hbegins]

theorem layout_true_of_begins {token : Token} (tokens : List Token) (h : token.begins) :
    layout true (token :: tokens) = ' ' :: layout false (token :: tokens) := by
  simp [layout, h]

theorem Node.exists_tokens_eq_cons (n : Node) :
    ∃ token tokens, n.tokens = token :: tokens ∧ token.begins := by
  cases n with
  | leaf atom => exact ⟨.atom atom, [], rfl, rfl⟩
  | list children => exact ⟨.openParen, _, rfl, rfl⟩

/-- Behind a form one space stands before the next, the form's own or one that is due. -/
theorem Node.ending_append_layout (n : Node) {token : Token} (tokens : List Token)
    (h : token.begins) :
    n.ending ++ layout n.ending.isEmpty (token :: tokens) =
      ' ' :: layout false (token :: tokens) := by
  unfold Node.ending
  split
  · rfl
  · exact layout_true_of_begins tokens h

mutual

theorem Node.layout_tokens (rest : List Token) : ∀ n : Node,
    layout false (n.tokens ++ rest) = n.chars ++ (n.ending ++ layout n.ending.isEmpty rest)
  | .leaf (.symbol text) => rfl
  | .leaf (.integer value) => rfl
  | .leaf (.operator op) => rfl
  | .list children => by
      have hclose : ∀ token ∈ (Token.closeParen :: rest).head?, token.begins = false := by
        simp [Token.begins]
      have hchildren := Forms.layout_tokens hclose children
      rw [Node.tokens, List.cons_append, List.append_assoc, List.singleton_append]
      show '(' :: layout false (Forms.tokens children ++ .closeParen :: rest) =
        '(' :: (Forms.chars children ++ [')']) ++ layout true rest
      rw [hchildren, List.cons_append, List.append_assoc]
      rfl

/-- What is laid out of forms, if no form follows them, is their text. -/
theorem Forms.layout_tokens {rest : List Token}
    (hrest : ∀ token ∈ rest.head?, token.begins = false) : ∀ forms : List Node,
    layout false (Forms.tokens forms ++ rest) = Forms.chars forms ++ layout false rest
  | [] => rfl
  | [form] => by
      rw [Forms.tokens, Forms.tokens, List.append_nil, Node.layout_tokens rest form, Forms.chars,
        layout_of_not_begins hrest, List.append_assoc]
  | form :: next :: forms => by
      obtain ⟨token, tokens, htokens, hbegins⟩ := next.exists_tokens_eq_cons
      have hnext : Forms.tokens (next :: forms) ++ rest =
          token :: (tokens ++ (Forms.tokens forms ++ rest)) := by
        simp [Forms.tokens, htokens]
      rw [Forms.tokens, List.append_assoc, Node.layout_tokens _ form, hnext,
        form.ending_append_layout _ hbegins, ← hnext, Forms.layout_tokens hrest (next :: forms),
        Forms.chars, List.append_assoc, List.cons_append]

end

theorem Tree.chars_eq_layout (t : Tree) : t.chars = layout false t.tokens := by
  have hnone : ∀ token ∈ ([] : List Token).head?, token.begins = false := by simp
  have hforms := Forms.layout_tokens hnone t.forms
  rw [List.append_nil, layout, List.append_nil] at hforms
  exact hforms.symm

end SExpr
