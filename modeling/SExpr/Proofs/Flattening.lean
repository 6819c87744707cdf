import Mathlib.Logic.ExistsUnique
import SExpr.Proofs.Assembling

/-!
Parsing against flattening. An assembly that takes the tokens of a sequence of
forms has gained exactly these forms, whatever it held before; and what an
assembly holds flattens to the tokens it has taken. So without a limit a tree is
the parse of its own tokens and of no others, and the tokens that parse at all
are those whose parentheses balance.
-/

namespace SExpr

/-- No prefix closes more lists than it opens, and the whole closes all. -/
def Balanced (tokens : List Token) : Prop :=
  (∀ taken, taken <+: tokens → 0 ≤ height taken) ∧ height tokens = 0

mutual

/-- Without the parentheses, the tokens are the atoms. -/
theorem Node.filterMap_atom?_tokens : ∀ n : Node, n.tokens.filterMap Token.atom? = n.atoms
  | .leaf atom => rfl
  | .list children => by
      rw [Node.atoms, ← Forms.filterMap_atom?_tokens children, Node.tokens,
        List.filterMap_cons_none rfl, List.filterMap_append]
      exact List.append_nil _

theorem Forms.filterMap_atom?_tokens :
    ∀ forms : List Node, (Forms.tokens forms).filterMap Token.atom? = Forms.atoms forms
  | [] => rfl
  | form :: forms => by
      rw [Forms.atoms, ← Node.filterMap_atom?_tokens form, ← Forms.filterMap_atom?_tokens forms,
        Forms.tokens, List.filterMap_append]

end

namespace Assembly

variable {options : Options} {index : Nat} {a next : Assembly}

/-- An assembly with more forms in its innermost list. -/
def addForms (a : Assembly) (forms : List Node) : Assembly :=
  { a with current := forms.reverse ++ a.current }

theorem addForms_append (a : Assembly) (as bs : List Node) :
    (a.addForms as).addForms bs = a.addForms (as ++ bs) := by
  simp [addForms]

theorem forms_addForms (a : Assembly) (forms : List Node) :
    (a.addForms forms).forms = a.forms ++ forms := by
  simp [addForms, Assembly.forms]

/-- A list that is started, filled and finished is one more form. -/
theorem finishList?_startList (a : Assembly) (forms : List Node) :
    (a.startList.addForms forms).finishList? = some (a.addForms [.list forms]) := by
  simp [startList, addForms, finishList?]

mutual

/-- Without a limit, the tokens of a node add this node. -/
theorem takes_tokens_node (hlimit : options.maxDepth = none) (index : Nat) (a : Assembly) :
    ∀ n : Node, Takes options index a n.tokens (a.addForms [n])
  | .leaf atom => .single rfl
  | .list children => by
      have hopen : a.step options index .openParen = .ok a.startList :=
        step_openParen_of_lt options index (by simp [hlimit])
      have hclose (place : Nat) : (a.startList.addForms children).step options place .closeParen =
          .ok (a.addForms [.list children]) := by
        simp [step, finishList?_startList]
      rw [Node.tokens]
      refine .cons hopen (.append ?_ (.single (hclose _)))
      exact takes_tokens_forms hlimit (index + 1) a.startList children

theorem takes_tokens_forms (hlimit : options.maxDepth = none) (index : Nat) (a : Assembly) :
    ∀ forms : List Node, Takes options index a (Forms.tokens forms) (a.addForms forms)
  | [] => .nil
  | form :: forms => by
      have hforms :=
        takes_tokens_forms hlimit (index + form.tokens.length) (a.addForms [form]) forms
      rw [addForms_append, List.singleton_append] at hforms
      rw [Forms.tokens]
      exact .append (takes_tokens_node hlimit index a form) hforms

end

end Assembly

/-- With all lists finished, the tokens taken are those of the forms. -/
theorem Assembly.tokens_eq_of_openLists_eq_zero {a : Assembly} (h : a.openLists = 0) :
    a.tokens = Forms.tokens a.forms := by
  have houter : a.outer = [] := List.length_eq_zero_iff.1 (a.openLists_eq.symm.trans h)
  simp [Assembly.tokens, houter]

namespace Tree

/-- A parse loses, adds and moves no token, whatever the limit. -/
theorem tokens_of_ofTokens {tokens : List Token} {options : Options} {t : Tree}
    (h : ofTokens tokens options = .ok t) : t.tokens = tokens := by
  obtain ⟨a, htakes, hlists, rfl⟩ := ofTokens_eq_ok_iff.1 h
  rw [Tree.tokens, ← Assembly.tokens_eq_of_openLists_eq_zero hlists, htakes.tokens_eq]
  rfl

theorem ofTokens_tokens {options : Options} (hlimit : options.maxDepth = none) (t : Tree) :
    ofTokens t.tokens options = .ok t := by
  rw [ofTokens_eq_ok_iff]
  refine ⟨_, Assembly.takes_tokens_forms hlimit 0 .empty t.forms, rfl, ?_⟩
  rw [Assembly.forms_addForms]
  rfl

/-! ### Balance -/

/-- A parse that succeeds proves the parentheses balanced: the height of a prefix
is the number of lists open behind it. -/
theorem balanced_of_ofTokens {tokens : List Token} {options : Options} {t : Tree}
    (h : ofTokens tokens options = .ok t) : Balanced tokens := by
  obtain ⟨a, htakes, hlists, -⟩ := ofTokens_eq_ok_iff.1 h
  have hempty : (Assembly.empty.openLists : Int) = 0 := rfl
  constructor
  · rintro taken ⟨rest, rfl⟩
    obtain ⟨middle, htaken, -⟩ := htakes.exists_of_append
    have hmiddle := htaken.openLists_eq
    omega
  · have hheight := htakes.openLists_eq
    omega

theorem exists_ofTokens_of_balanced {tokens : List Token} {options : Options}
    (hlimit : options.maxDepth = none) (h : Balanced tokens) :
    ∃ t, ofTokens tokens options = .ok t := by
  have hempty : (Assembly.empty.openLists : Int) = 0 := rfl
  cases hparse : ofTokens tokens options with
  | ok t => exact ⟨t, rfl⟩
  | error error =>
      exfalso
      rcases ofTokens_eq_error_iff_takes.1 hparse with
        ⟨a, htakes, hopen, -⟩ | ⟨taken, token, rest, a, rfl, htakes, hrefuse⟩
      -- all tokens are taken, and the total leaves no list open
      · have hheight := htakes.openLists_eq
        have htotal := h.2
        omega
      -- a refused token closes more lists than are open, so a prefix is below zero
      · rcases Assembly.step_eq_error hrefuse with ⟨rfl, hlists, -⟩ | ⟨limit, hmax, -⟩
        · have hheight := htakes.openLists_eq
          have htaken := h.1 (taken ++ [.closeParen]) ⟨rest, by simp⟩
          rw [height_append, height_closeParen] at htaken
          omega
        · rw [hlimit] at hmax
          cases hmax

/-- Without a limit, parsing undoes flattening and nothing else: a sequence of
tokens parses to the tree that flattens to it, there is one exactly if its
parentheses balance, and every tree is the parse of one sequence. -/
theorem ofTokens_inverts_tokens :
    (∀ tokens t, ofTokens tokens = .ok t ↔ t.tokens = tokens) ∧
      (∀ tokens, (∃ t, ofTokens tokens = .ok t) ↔ Balanced tokens) ∧
      ∀ t, ∃! tokens, ofTokens tokens = .ok t := by
  have hparse (tokens : List Token) (t : Tree) :
      ofTokens tokens = .ok t ↔ t.tokens = tokens := by
    constructor
    · exact tokens_of_ofTokens
    · rintro rfl
      exact ofTokens_tokens rfl t
  refine ⟨hparse, fun tokens => ⟨?_, exists_ofTokens_of_balanced rfl⟩, fun t => ?_⟩
  · rintro ⟨t, ht⟩
    exact balanced_of_ofTokens ht
  · exact ⟨t.tokens, (hparse _ t).2 rfl, fun tokens ht => ((hparse tokens t).1 ht).symm⟩

end Tree

end SExpr
