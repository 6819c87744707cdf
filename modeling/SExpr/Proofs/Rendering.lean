import SExpr.Proofs.RoundTrip

/-!
The texts of nodes and of trees that were built by hand. A sequence is written as the texts
of its forms with one space between two of them, and with one more at the end if the last
form is an operator. So an operator has its space wherever it stands in a tree, and lacks it
only where it is written by itself: every other node is the only form of what is read of its
text. A symbol is read as whatever its own text is scanned as, since the spaces and
parentheses around it belong to no lexeme of it.
-/

namespace SExpr

/-! ### Sequences as joined texts -/

theorem Node.ending_eq_nil {n : Node} (h : ∀ op, n ≠ operator op) : n.ending = [] := by
  unfold ending
  split
  · exact absurd rfl (h _)
  · rfl

/-- The text of a sequence is the texts of its forms with one space between them, and what
the last form needs behind it. -/
theorem Forms.chars_eq_intercalate (forms : List Node) :
    Forms.chars forms =
      [' '].intercalate (forms.map Node.chars) ++ (forms.getLast?.map Node.ending).getD [] := by
  induction forms with
  | nil => rfl
  | cons form forms ih =>
      cases forms with
      | nil =>
          rw [Forms.chars, List.map_singleton, List.intercalate_singleton]
          rfl
      | cons next forms =>
          rw [List.map_cons] at ih
          rw [Forms.chars, ih, List.map_cons, List.map_cons, List.intercalate_cons_cons,
            List.getLast?_cons_cons]
          simp

namespace Tree

theorem text_eq_intercalate (t : Tree) :
    t.text = " ".intercalate (t.forms.map Node.text) ++
      String.ofList ((t.forms.getLast?.map Node.ending).getD []) := by
  rw [← String.toList_inj]
  simp [Tree.text, Tree.chars, Forms.chars_eq_intercalate, Node.text, Function.comp_def]

theorem text_toNode (t : Tree) : t.toNode.text = "(" ++ t.text ++ ")" := by
  rw [← String.toList_inj]
  simp [toNode, Node.text, Node.chars, Tree.text, Tree.chars]

end Tree

/-! ### Texts of single nodes -/

namespace Node

variable {n : Node}

/-- An operator by itself has no space behind it. -/
theorem read_text_operator (op : Operator) :
    Tree.read (operator op).text = .error (.scan ⟨.unterminated op, 0⟩) := by
  have hfits : (Lexeme.bareOperator op).Fits [] := by simp [Lexeme.Fits]
  have hlexemes : Lexeme.ofChars (operator op).text.toList = [.bareOperator op] := by
    simpa [Lexeme.chars, Node.text, operator, Node.chars, Atom.chars] using
      Lexeme.ofChars_of_fits hfits
  have herrors : scanErrors (operator op).text.toList = [⟨.unterminated op, 0⟩] := by
    rw [scanErrors, hlexemes]
    rfl
  rw [Tree.read, scan_of_scanErrors_cons herrors]

/-- A node that is no operator is written like the tree that has no other form. -/
theorem text_singleton (h : ∀ op, n ≠ operator op) : (Tree.mk [n]).text = n.text := by
  rw [Tree.text, Tree.chars, Forms.chars, ending_eq_nil h, List.append_nil]
  rfl

theorem read_text_of_ne_operator (h : ∀ op, n ≠ operator op)
    (hatoms : ∀ atom ∈ n.atoms, atom.Readable) : Tree.read n.text = .ok ⟨[n]⟩ := by
  have hsingle : ∀ atom ∈ (Tree.mk [n]).atoms, atom.Readable := by
    simpa [Tree.atoms, Forms.atoms] using hatoms
  rw [← text_singleton h]
  exact Tree.read_eq_ok_iff_scan.2 (Tree.scan_text hsingle)

/-- A node with readable atoms is the one form of what is read of its text, unless it is an
operator, which lacks its space there. In parentheses a tree is written as by itself, and by
itself as its forms with one space between them, and one more behind an operator that comes
last. -/
theorem read_text_unless_operator :
    (∀ n : Node, (∀ atom ∈ n.atoms, atom.Readable) →
        (∀ op, n = operator op → Tree.read n.text = .error (.scan ⟨.unterminated op, 0⟩)) ∧
        ((∀ op, n ≠ operator op) → Tree.read n.text = .ok ⟨[n]⟩)) ∧
      ∀ t : Tree, t.toNode.text = "(" ++ t.text ++ ")" ∧
        (∀ op, t.forms.getLast? = some (operator op) →
          t.text = " ".intercalate (t.forms.map Node.text) ++ " ") ∧
        ((∀ op, t.forms.getLast? ≠ some (operator op)) →
          t.text = " ".intercalate (t.forms.map Node.text)) := by
  refine ⟨fun n hatoms => ⟨?_, fun h => read_text_of_ne_operator h hatoms⟩, fun t =>
    ⟨t.text_toNode, fun op hlast => ?_, fun hlast => ?_⟩⟩
  · rintro op rfl
    exact read_text_operator op
  · rw [t.text_eq_intercalate, hlast]
    rfl
  · have hending : (t.forms.getLast?.map ending).getD [] = [] := by
      cases hforms : t.forms.getLast? with
      | none => rfl
      | some form =>
          refine ending_eq_nil fun op hop => hlast op ?_
          rw [hforms, hop]
    rw [t.text_eq_intercalate, hending]
    exact String.append_empty

/-- An operator by itself, one in a list, and one behind a list. -/
theorem read_text_unless_operator_nested :
    Tree.read (operator .plus).text = .error (.scan ⟨.unterminated .plus, 0⟩) ∧
      Tree.read (list [operator .plus]).text = .ok ⟨[list [operator .plus]]⟩ ∧
      (Tree.mk [list [], operator .plus]).text = "() + " := by
  obtain ⟨hnode, htree⟩ := read_text_unless_operator
  refine ⟨(hnode (operator .plus) ?_).1 .plus rfl, (hnode (list [operator .plus]) ?_).2 nofun, ?_⟩
  · simp [operator, atoms, Atom.Readable]
  · simp [operator, atoms, Forms.atoms, Atom.Readable]
  · rw [(htree ⟨[list [], operator .plus]⟩).2.1 .plus rfl]
    rfl

end Node

/-! ### Symbols that hold any text -/

/-- The text of a tree is scanned as the tokens of the tree, each symbol as what its own
text is scanned as, whatever else than a symbol that is. -/
theorem Tree.scan_text_expanded {t : Tree} {spelling : String → List Token}
    (h : ∀ text, .symbol text ∈ t.atoms → scan text = .ok (spelling text)) :
    scan t.text = .ok (t.tokens.flatMap (Token.expand spelling)) := by
  have hspells := Forms.spells_chars spelling t.forms fun text hmem =>
    scan_eq_ok_iff_spells.1 (h text hmem)
  rw [scan_eq_ok_iff_spells]
  simpa [Tree.text, Tree.chars, Tree.tokens] using hspells

/-- Symbols with no text, with two tokens and with a parenthesis that closes nothing. -/
theorem Tree.scan_text_expanded_symbols :
    (∀ text ∈ ["", "1 a", ")b"], scan text = .ok (scanTokens text.toList)) ∧
      scan (Tree.mk [.symbol "", .list [.operator .plus, .symbol "1 a", .operator .minus],
          .symbol ")b"]).text =
        .ok [.openParen, .atom (.operator .plus), .atom (.integer 1), .atom (.symbol "a"),
          .atom (.operator .minus), .closeParen, .closeParen, .atom (.symbol "b")] := by
  have hsymbols : ∀ text ∈ ["", "1 a", ")b"], scan text = .ok (scanTokens text.toList) := by
    have hsound : ∀ text ∈ ["", "1 a", ")b"], scanErrors text.toList = [] := by decide +kernel
    exact fun text htext => scan_of_scanErrors_nil (hsound text htext)
  have htree : ∀ text, .symbol text ∈ (Tree.mk [.symbol "",
      .list [.operator .plus, .symbol "1 a", .operator .minus], .symbol ")b"]).atoms →
        scan text = .ok (scanTokens text.toList) := by
    intro text htext
    apply hsymbols
    simpa [Tree.atoms, Forms.atoms, Node.atoms, Node.symbol, Node.operator] using htext
  refine ⟨hsymbols, (Tree.scan_text_expanded htree).trans (congrArg Except.ok ?_)⟩
  decide +kernel

end SExpr
