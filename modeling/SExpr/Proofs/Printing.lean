import SExpr.Node.Printer
import SExpr.Proofs.Scanning

/-!
What a printed text is scanned as. `Spells` relates a text to the tokens that a
scan makes of it, and two texts that spell something may stand side by side
unless a run would go on from the one into the other. The printer never lets
that happen, whatever scannable text its symbols hold: a parenthesis joins
nothing, and the space behind a form belongs to an operator or to no one.
-/

namespace SExpr

/-- A scan of the text finds no error and hands out these tokens. -/
def Spells (cs : List Char) (tokens : List Token) : Prop :=
  (∀ lexeme ∈ Lexeme.ofChars cs, lexeme.fault? = none) ∧ scanTokens cs = tokens

theorem scan_eq_ok_iff_spells {text : String} {tokens : List Token} :
    scan text = .ok tokens ↔ Spells text.toList tokens := by
  rw [scan_eq_ok_iff, scanErrors_eq_nil_iff_fault?]
  rfl

/-! ### Characters that join nothing -/

/-- No run holds the character. -/
def Apart (c : Char) : Prop := c.isDigit = false ∧ c.isAlpha = false

theorem apart_space : Apart ' ' := ⟨rfl, rfl⟩

theorem apart_closeParen : Apart ')' := ⟨rfl, rfl⟩

theorem Apart.not_joins_left {a b : Char} (h : Apart a) : ¬ Joins a b := by
  simp [Joins, h.1, h.2]

theorem Apart.not_joins_right {a b : Char} (h : Apart b) : ¬ Joins a b := by
  simp [Joins, h.1, h.2]

/-- Parentheses around a text leave its lexemes as they are. -/
theorem Lexeme.ofChars_parens (cs : List Char) :
    ofChars ('(' :: (cs ++ [')'])) = openParen :: (ofChars cs ++ [closeParen]) := by
  have hopen : openParen.Fits (cs ++ [')']) := trivial
  have hclose : closeParen.Fits [] := trivial
  have hinner : ofChars (cs ++ [')']) = ofChars cs ++ ofChars [')'] := by
    refine ofChars_append (fun a _ b hb => ?_) (by simp)
    obtain rfl := Option.some.inj hb
    exact apart_closeParen.not_joins_right
  have hlast : ofChars [')'] = [closeParen] := by
    simpa [chars] using ofChars_of_fits hclose
  rw [← hlast, ← hinner]
  exact ofChars_of_fits hopen

theorem scanTokens_parens (cs : List Char) :
    scanTokens ('(' :: (cs ++ [')'])) = .openParen :: (scanTokens cs ++ [.closeParen]) := by
  rw [scanTokens, Lexeme.ofChars_parens, List.filterMap_cons, List.filterMap_append]
  rfl

/-! ### Texts side by side -/

namespace Spells

variable {as bs cs : List Char} {ts us : List Token}

theorem nil : Spells [] [] := by
  simp [Spells, scanTokens]

/-- A lexeme that could end a text spells its own token. -/
theorem of_fits (lexeme : Lexeme) (hfits : lexeme.Fits []) (hfault : lexeme.fault? = none) :
    Spells lexeme.chars lexeme.kept?.toList := by
  have hchars := Lexeme.ofChars_of_fits hfits
  rw [List.append_nil, Lexeme.ofChars_nil] at hchars
  constructor
  · simpa [hchars] using hfault
  · rw [scanTokens, hchars, List.filterMap_cons]
    cases lexeme.kept? <;> rfl

/-- A text that spells something keeps its lexemes before another text that does not
join it. -/
theorem ofChars_append (has : Spells as ts)
    (hjoins : ∀ a ∈ as.getLast?, ∀ b ∈ bs.head?, ¬ Joins a b) :
    Lexeme.ofChars (as ++ bs) = Lexeme.ofChars as ++ Lexeme.ofChars bs := by
  refine Lexeme.ofChars_append hjoins fun op hop => ?_
  -- an operator without its space is a fault, so the first text does not end in one
  have hfault := has.1 _ (List.mem_of_getLast? hop)
  simp [Lexeme.fault?, Lexeme.token?] at hfault

theorem append (has : Spells as ts) (hbs : Spells bs us)
    (hjoins : ∀ a ∈ as.getLast?, ∀ b ∈ bs.head?, ¬ Joins a b) :
    Spells (as ++ bs) (ts ++ us) := by
  have hchars := has.ofChars_append hjoins
  constructor
  · intro lexeme hlexeme
    rw [hchars, List.mem_append] at hlexeme
    rcases hlexeme with hlexeme | hlexeme
    · exact has.1 lexeme hlexeme
    · exact hbs.1 lexeme hlexeme
  · rw [scanTokens, hchars, List.filterMap_append, ← has.2, ← hbs.2]
    rfl

theorem append_of_apart_left {c : Char} (hc : Apart c) (has : Spells (as ++ [c]) ts)
    (hbs : Spells bs us) : Spells (as ++ c :: bs) (ts ++ us) := by
  rw [List.append_cons]
  refine has.append hbs fun a ha b _ => ?_
  obtain rfl : c = a := by simpa using ha
  exact hc.not_joins_left

theorem append_of_apart_right {c : Char} (hc : Apart c) (has : Spells as ts)
    (hbs : Spells (c :: bs) us) : Spells (as ++ c :: bs) (ts ++ us) := by
  refine has.append hbs fun a _ b hb => ?_
  obtain rfl : c = b := by simpa using hb
  exact hc.not_joins_right

/-- A space behind a text adds no token. -/
theorem append_space (h : Spells cs ts) : Spells (cs ++ [' ']) ts := by
  have hspace : Spells [' '] [] := of_fits .blank trivial rfl
  simpa using append_of_apart_right apart_space h hspace

/-- Parentheses around a text are two more tokens. -/
theorem parens (h : Spells cs ts) :
    Spells ('(' :: (cs ++ [')'])) (.openParen :: (ts ++ [.closeParen])) := by
  constructor
  · intro lexeme hlexeme
    rw [Lexeme.ofChars_parens, List.mem_cons, List.mem_append, List.mem_singleton] at hlexeme
    rcases hlexeme with rfl | hlexeme | rfl
    · rfl
    · exact h.1 lexeme hlexeme
    · rfl
  · rw [scanTokens_parens, h.2]

theorem operator (op : Operator) : Spells [op.toChar, ' '] [.atom (.operator op)] :=
  of_fits (.operator op) trivial rfl

theorem integer (value : UInt64) :
    Spells (Text.digits value.toNat) [.atom (.integer value)] := by
  have hfits : (Lexeme.digits (Text.digits value.toNat)).Fits [] :=
    ⟨Text.digits_ne_nil _, fun c hc => Text.isDigit_of_mem_digits hc, by simp⟩
  simpa [Lexeme.fault?, Lexeme.kept?, Lexeme.token?, Lexeme.chars] using of_fits _ hfits

/-- A text made of letters only spells one symbol. -/
theorem letters {run : List Char} (hne : run ≠ []) (hrun : ∀ c ∈ run, c.isAlpha) :
    Spells run [.atom (.symbol (String.ofList run))] :=
  of_fits (.letters run) ⟨hne, hrun, by simp⟩ rfl

end Spells

/-! ### Printed forms -/

/-- A token as it is scanned in a printed text, where a symbol is what its own
text spells. -/
def Token.expand (spelling : String → List Token) : Token → List Token
  | atom (.symbol text) => spelling text
  | token => [token]

/-- A form that ends a sequence well can be followed by the next form instead. -/
theorem Node.spells_chars_space {n : Node} {ts : List Token}
    (h : Spells (n.chars ++ n.ending) ts) : Spells (n.chars ++ [' ']) ts := by
  unfold Node.ending at h
  split at h
  · exact h
  · rw [List.append_nil] at h
    exact h.append_space

section

variable (spelling : String → List Token)

mutual

/-- The text of a node at the end of a sequence. -/
theorem Node.spells_chars_ending : ∀ n : Node,
    (∀ text, .symbol text ∈ n.atoms → Spells text.toList (spelling text)) →
    Spells (n.chars ++ n.ending) (n.tokens.flatMap (Token.expand spelling))
  | .leaf (.symbol text), h => by
      have htext := h text (by simp [Node.atoms])
      simpa [Node.chars, Node.ending, Node.tokens, Atom.chars, Token.expand] using htext
  | .leaf (.integer value), _ => by
      simpa [Node.chars, Node.ending, Node.tokens, Atom.chars, Token.expand] using
        Spells.integer value
  | .leaf (.operator op), _ => by
      simpa [Node.chars, Node.ending, Node.tokens, Atom.chars, Token.expand] using
        Spells.operator op
  | .list children, h => by
      have hchildren := Forms.spells_chars children h
      simpa [Node.chars, Node.ending, Node.tokens, Token.expand] using hchildren.parens

theorem Forms.spells_chars : ∀ forms : List Node,
    (∀ text, .symbol text ∈ Forms.atoms forms → Spells text.toList (spelling text)) →
    Spells (Forms.chars forms) ((Forms.tokens forms).flatMap (Token.expand spelling))
  | [], _ => by simpa [Forms.chars, Forms.tokens] using Spells.nil
  | [form], h => by
      have hform := Node.spells_chars_ending form fun text hmem =>
        h text (by simp [Forms.atoms, hmem])
      simpa [Forms.chars, Forms.tokens] using hform
  | form :: next :: forms, h => by
      have hform := Node.spells_chars_ending form fun text hmem =>
        h text (by simp [Forms.atoms, hmem])
      have hforms := Forms.spells_chars (next :: forms) fun text hmem =>
        h text (by rw [Forms.atoms, List.mem_append]; exact .inr hmem)
      rw [Forms.chars, Forms.tokens, List.flatMap_append]
      exact (Node.spells_chars_space hform).append_of_apart_left apart_space hforms

end

end

end SExpr
