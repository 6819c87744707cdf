import Mathlib.Data.List.SplitBy
import SExpr.Proofs.Canonical

/-!
What reading and writing leave of a text. The tree of a text is written with the
characters of the text in their order, but for spaces and for zeros before a number:
every lexeme is written as its token, a number as its value, and everything else that
is written is spaces.
-/

namespace SExpr

/-- A text without its spaces. -/
def withoutSpaces (cs : List Char) : List Char := cs.filter (· ≠ ' ')

@[simp] theorem withoutSpaces_nil : withoutSpaces [] = [] := rfl

@[simp] theorem withoutSpaces_space (cs : List Char) :
    withoutSpaces (' ' :: cs) = withoutSpaces cs := rfl

@[simp] theorem withoutSpaces_append (as bs : List Char) :
    withoutSpaces (as ++ bs) = withoutSpaces as ++ withoutSpaces bs :=
  List.filter_append as bs

/-! ### Numbers without superfluous zeros -/

/-- A text with the superfluous zeros of its numbers removed. It is split between two
characters unless both are digits, that is into its maximal runs of digits and the
other characters one by one. -/
def trimNumbers (cs : List Char) : List Char :=
  (cs.splitBy fun a b => a.isDigit && b.isDigit).flatMap Text.trimZeros

@[simp] theorem trimNumbers_nil : trimNumbers [] = [] := rfl

theorem trimNumbers_append {as bs : List Char}
    (hseam : ∀ a ∈ as.getLast?, ∀ b ∈ bs.head?, ¬ (a.isDigit ∧ b.isDigit)) :
    trimNumbers (as ++ bs) = trimNumbers as ++ trimNumbers bs := by
  have hsplit : ∀ a ∈ as.getLast?, ∀ b ∈ bs.head?, (a.isDigit && b.isDigit) = false := by
    simpa using hseam
  rw [trimNumbers, List.splitBy_append hsplit, List.flatMap_append]
  rfl

theorem trimNumbers_run {run : List Char} (hne : run ≠ []) (hrun : ∀ c ∈ run, c.isDigit) :
    trimNumbers run = Text.trimZeros run := by
  have hpairs : run.Pairwise fun a b => a.isDigit && b.isDigit :=
    List.pairwise_of_forall_mem_list fun a ha b hb => by simp [hrun a ha, hrun b hb]
  rw [trimNumbers, List.splitBy_of_isChain hne hpairs.isChain, List.flatMap_singleton]

theorem trimNumbers_of_not_isDigit {cs : List Char} (h : ∀ c ∈ cs, ¬ c.isDigit) :
    trimNumbers cs = cs := by
  induction cs with
  | nil => rfl
  | cons c cs ih =>
      have hseam : ∀ a ∈ [c].getLast?, ∀ b ∈ cs.head?, ¬ (a.isDigit ∧ b.isDigit) := by
        rintro a ⟨⟩ b - ⟨hdigit, -⟩
        exact h c List.mem_cons_self hdigit
      have hrest := ih fun d hd => h d (List.mem_cons_of_mem c hd)
      rw [← List.singleton_append, trimNumbers_append hseam, hrest]
      rfl

/-! ### What is read and what is written -/

/-- A lexeme with its zeros removed is its token as it is written. -/
theorem Lexeme.Keeps.trimNumbers_chars {lexeme : Lexeme} {token : Token} {rest : List Char}
    (h : lexeme.Keeps token) (hfits : lexeme.Fits rest) :
    trimNumbers lexeme.chars = token.written := by
  cases h with
  | openParen => exact trimNumbers_of_not_isDigit (by simp [chars])
  | closeParen => exact trimNumbers_of_not_isDigit (by simp [chars])
  | letters run =>
      have hnone : ∀ c ∈ run, ¬ c.isDigit := fun c hc hdigit =>
        not_isAlpha_of_isDigit hdigit (hfits.2.1 c hc)
      simpa [chars, Token.written, Token.chars, Atom.chars] using
        trimNumbers_of_not_isDigit hnone
  | @digits run value hword =>
      have hvalue : Text.value run = value.toNat := Word.ofNat?_eq_some_iff.1 hword
      have htrim := Text.digits_value hfits.1 hfits.2.1
      rw [hvalue] at htrim
      exact (trimNumbers_run hfits.1 hfits.2.1).trans htrim.symm
  | operator op => exact trimNumbers_of_not_isDigit (by simp [chars, op.toChar_class])

/-- But for spaces, a text with its zeros removed is its tokens one behind the other. -/
theorem withoutSpaces_trimNumbers {cs : List Char}
    (h : ∀ lexeme ∈ Lexeme.ofChars cs, lexeme.fault? = none) :
    withoutSpaces (trimNumbers cs) = withoutSpaces ((scanTokens cs).flatMap Token.written) := by
  induction cs using Lexeme.induction with
  | nil => simp [scanTokens]
  | cons lexeme rest hfits ih =>
      rw [Lexeme.ofChars_of_fits hfits, List.forall_mem_cons] at h
      have hseam : ∀ a ∈ lexeme.chars.getLast?, ∀ b ∈ rest.head?, ¬ (a.isDigit ∧ b.isDigit) :=
        fun a ha b hb hdigits => hfits.not_joins a ha b hb (.inl hdigits)
      rw [scanTokens_of_fits hfits, trimNumbers_append hseam, List.flatMap_append,
        withoutSpaces_append, withoutSpaces_append, ih h.2]
      rcases Lexeme.eq_blank_or_keeps h.1 with rfl | ⟨token, hkeeps⟩
      · rfl
      · rw [hkeeps.trimNumbers_chars hfits, hkeeps.kept?, Option.toList_some,
          List.flatMap_singleton]

theorem withoutSpaces_layout (due : Bool) (tokens : List Token) :
    withoutSpaces (layout due tokens) = withoutSpaces (tokens.flatMap Token.written) := by
  induction tokens generalizing due with
  | nil => rfl
  | cons token tokens ih =>
      rw [layout, List.flatMap_cons, withoutSpaces_append, withoutSpaces_append,
        withoutSpaces_append, ih]
      split <;> rfl

namespace Tree

/-- The text of a tree that was read has the characters of the text it was read from, each
once and in their order, but for spaces and for superfluous zeros before a number. -/
theorem text_conserves_characters {text : String} {options : Options} {t : Tree}
    (h : read text options = .ok t) :
    withoutSpaces t.text.toList = withoutSpaces (trimNumbers text.toList) := by
  obtain ⟨hfault, htokens⟩ := scan_eq_ok_iff_spells.1 (scan_of_read h)
  calc
    withoutSpaces t.text.toList = withoutSpaces (layout false t.tokens) := by
      rw [Tree.text, String.toList_ofList, t.chars_eq_layout]
    _ = withoutSpaces ((scanTokens text.toList).flatMap Token.written) := by
      rw [withoutSpaces_layout, htokens]
    _ = withoutSpaces (trimNumbers text.toList) := (withoutSpaces_trimNumbers hfault).symm

/-- Of a number that is zero one digit is left. -/
theorem text_conserves_characters_zeros :
    read "(a00(+  )0107)" =
        .ok ⟨[.list [.symbol "a", .integer 0, .list [.operator .plus], .integer 107]]⟩ ∧
      withoutSpaces "(a 0 (+ ) 107)".toList =
        withoutSpaces (trimNumbers "(a00(+  )0107)".toList) := by
  have hread : read "(a00(+  )0107)" =
      .ok ⟨[.list [.symbol "a", .integer 0, .list [.operator .plus], .integer 107]]⟩ := by
    decide +kernel
  have htext : (Tree.mk [.list [.symbol "a", .integer 0, .list [.operator .plus],
      .integer 107]]).text = "(a 0 (+ ) 107)" := by
    decide +kernel
  refine ⟨hread, ?_⟩
  rw [← htext]
  exact text_conserves_characters hread

end Tree

end SExpr
