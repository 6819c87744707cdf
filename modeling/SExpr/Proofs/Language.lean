import SExpr.Proofs.Limits
import SExpr.Proofs.Runs

/-!
The language that the reader accepts, by the characters of a text. A text goes
through the same heights as its tokens, whatever stands between the parentheses,
so what a parse asks of the tokens can be asked of the characters. The depth of
the tree is the greatest height in the text, and its leaves are the runs and the
operators of the text.
-/

namespace SExpr

/-! ### The heights of a text -/

/-- The opening parentheses of a text less the closing ones. -/
def parenHeight (cs : List Char) : Int := (cs.count '(' : Int) - cs.count ')'

@[simp] theorem parenHeight_nil : parenHeight [] = 0 := rfl

@[simp] theorem parenHeight_append (as bs : List Char) :
    parenHeight (as ++ bs) = parenHeight as + parenHeight bs := by
  simp only [parenHeight, List.count_append]
  omega

/-- Without a parenthesis a text stays where it is. -/
theorem profile_of_no_paren {cs : List Char} (h : ∀ c ∈ cs, c ≠ '(' ∧ c ≠ ')') :
    profile parenHeight cs = {0} := by
  have hlevel (taken : List Char) (htaken : taken <+: cs) : parenHeight taken = 0 := by
    have hopen : '(' ∉ taken := fun hmem => (h _ (htaken.mem hmem)).1 rfl
    have hclose : ')' ∉ taken := fun hmem => (h _ (htaken.mem hmem)).2 rfl
    simp [parenHeight, List.count_eq_zero_of_not_mem hopen, List.count_eq_zero_of_not_mem hclose]
  ext k
  constructor
  · rintro ⟨taken, htaken, rfl⟩
    exact hlevel taken htaken
  · rintro rfl
    exact ⟨[], List.nil_prefix, rfl⟩

namespace Lexeme

variable {lexeme : Lexeme} {rest : List Char}

/-- Of a lexeme that is no parenthesis a scan keeps an atom at most. -/
theorem profile_kept? (hopen : lexeme ≠ openParen) (hclose : lexeme ≠ closeParen) :
    profile height lexeme.kept?.toList = {0} := by
  have hatom (token : Token) (h : lexeme.Keeps token) : ∃ atom, token = .atom atom := by
    cases h with
    | openParen => exact absurd rfl hopen
    | closeParen => exact absurd rfl hclose
    | _ => exact ⟨_, rfl⟩
  cases hkept : lexeme.kept? with
  | none => simp [profile]
  | some token =>
      obtain ⟨atom, rfl⟩ := hatom token (keeps_of_kept? hkept)
      rw [Option.toList_some, profile_singleton height_nil]
      simp

/-- A lexeme goes through the heights of its token. -/
theorem Fits.profile_chars (h : lexeme.Fits rest) :
    profile parenHeight lexeme.chars = profile height lexeme.kept?.toList ∧
      parenHeight lexeme.chars = height lexeme.kept?.toList := by
  have hsingle {c : Char} {token : Token} (heq : parenHeight [c] = height [token]) :
      profile parenHeight [c] = profile height [token] := by
    rw [profile_singleton parenHeight_nil, profile_singleton height_nil, heq]
  by_cases hopen : lexeme = openParen
  · subst hopen
    exact ⟨hsingle rfl, rfl⟩
  by_cases hclose : lexeme = closeParen
  · subst hclose
    exact ⟨hsingle rfl, rfl⟩
  have hchars := profile_of_no_paren (h.no_paren hopen hclose)
  have hkept := profile_kept? hopen hclose
  have hself : parenHeight lexeme.chars ∈ profile parenHeight lexeme.chars := mem_profile_self _
  have hself' : height lexeme.kept?.toList ∈ profile height lexeme.kept?.toList :=
    mem_profile_self _
  rw [hchars] at hself
  rw [hkept] at hself'
  exact ⟨hchars.trans hkept.symm, hself.trans hself'.symm⟩

end Lexeme

/-- A text goes through the heights of its tokens. -/
theorem profile_scanTokens (cs : List Char) :
    profile parenHeight cs = profile height (scanTokens cs) ∧
      parenHeight cs = height (scanTokens cs) := by
  induction cs using Lexeme.induction with
  | nil => simp [scanTokens, profile]
  | cons lexeme rest hfits ih =>
      obtain ⟨hprofile, hheight⟩ := hfits.profile_chars
      rw [scanTokens_of_fits hfits, profile_append parenHeight_append,
        profile_append height_append, hprofile, hheight, ih.1]
      exact ⟨rfl, by rw [parenHeight_append, height_append, hheight, ih.2]⟩

/-! ### The lexical conditions -/

/-- Whether a character is an operator's. -/
def isOperator (c : Char) : Bool := decide (∃ op : Operator, op.toChar = c)

/-- What a scan asks of a text. -/
structure Lexical (cs : List Char) : Prop where
  inAlphabet : ∀ c ∈ cs, InAlphabet c
  terminated : ∀ place c, cs[place]? = some c → isOperator c →
    cs[place + 1]? = some ' '
  inRange : ∀ offset run, MaximalRun Char.isDigit cs offset run → Text.value run < UInt64.size

theorem lexical_iff_not_faultAt {cs : List Char} :
    Lexical cs ↔ ∀ offset fault, ¬ FaultAt cs offset fault := by
  constructor
  · rintro h offset fault (⟨hc, hforeign⟩ | ⟨hop, hspace⟩ | ⟨hrun, hvalue⟩)
    · exact hforeign (h.inAlphabet _ (List.mem_of_getElem? hc))
    · exact hspace (h.terminated offset _ hop (by simp [isOperator]))
    · exact Nat.not_lt.2 hvalue (h.inRange offset _ hrun)
  · intro h
    refine ⟨fun c hc => ?_, fun place c hc hop => ?_, fun offset run hrun => ?_⟩
    · obtain ⟨place, hplace⟩ := List.mem_iff_getElem?.1 hc
      by_contra hforeign
      exact h place _ (.unrecognized hplace hforeign)
    · obtain ⟨op, rfl⟩ := of_decide_eq_true hop
      by_contra hspace
      exact h place _ (.unterminated hc hspace)
    · by_contra hvalue
      exact h offset _ (.outOfRange hrun (Nat.not_lt.1 hvalue))

theorem scan_eq_ok_iff_lexical {text : String} {tokens : List Token} :
    scan text = .ok tokens ↔ Lexical text.toList ∧ scanTokens text.toList = tokens := by
  rw [scan_eq_ok_iff, scanErrors_eq_nil_iff, lexical_iff_not_faultAt]

/-! ### Leaves -/

theorem countP_isOperator_of_class {run : List Char}
    (h : ∀ c ∈ run, c.isDigit ∨ c.isAlpha) : run.countP isOperator = 0 := by
  rw [List.countP_eq_zero]
  intro c hc hop
  obtain ⟨op, rfl⟩ := of_decide_eq_true hop
  simpa [op.toChar_class] using h op.toChar hc

/-- A lexeme that is not faulty is no atom, or it is a run or an operator. -/
theorem Lexeme.Fits.length_atoms {lexeme : Lexeme} {rest : List Char} (h : lexeme.Fits rest)
    (hfault : lexeme.fault? = none) :
    (lexeme.kept?.toList.filterMap Token.atom?).length =
      lexeme.letters?.toList.length + lexeme.digits?.toList.length +
        lexeme.chars.countP isOperator := by
  rcases eq_blank_or_keeps hfault with rfl | ⟨token, hkeeps⟩
  · rfl
  rw [hkeeps.kept?]
  cases hkeeps with
  | letters run =>
      have hops := countP_isOperator_of_class fun c hc => .inr (h.2.1 c hc)
      simp [letters?, digits?, chars, Token.atom?, hops]
  | @digits run =>
      have hops := countP_isOperator_of_class fun c hc => .inl (h.2.1 c hc)
      simp [letters?, digits?, chars, Token.atom?, hops]
  | operator op =>
      have hop : isOperator op.toChar = true := by simp [isOperator]
      have hspace : isOperator ' ' = false := by decide
      simp [letters?, digits?, chars, Token.atom?, hop, hspace]
  | openParen => rfl
  | closeParen => rfl

/-- An atom of a text is one of its runs, or one of its operators. -/
theorem length_atoms_scanTokens {cs : List Char}
    (h : ∀ lexeme ∈ Lexeme.ofChars cs, lexeme.fault? = none) :
    ((scanTokens cs).filterMap Token.atom?).length =
      ((Lexeme.ofChars cs).filterMap Lexeme.letters?).length +
        ((Lexeme.ofChars cs).filterMap Lexeme.digits?).length + cs.countP isOperator := by
  induction cs using Lexeme.induction with
  | nil => simp [scanTokens]
  | cons lexeme rest hfits ih =>
      rw [Lexeme.ofChars_of_fits hfits] at h
      have hlexeme := hfits.length_atoms (h lexeme List.mem_cons_self)
      have hrest := ih fun other hother => h other (List.mem_cons_of_mem _ hother)
      have hfilter {β : Type} (f : Lexeme → Option β) :
          ((lexeme :: Lexeme.ofChars rest).filterMap f).length =
            (f lexeme).toList.length + ((Lexeme.ofChars rest).filterMap f).length := by
        rw [List.filterMap_cons]
        cases f lexeme <;> simp [Nat.add_comm]
      rw [scanTokens_of_fits hfits, Lexeme.ofChars_of_fits hfits, List.filterMap_append,
        List.length_append, List.countP_append, hlexeme, hfilter, hfilter]
      omega

/-! ### The language of the reader -/

namespace Tree

/-- The atoms of a tree that was read number as many as the runs and the operators of
the text. -/
theorem leafCount_of_scan {text : String} {t : Tree} (h : scan text = .ok t.tokens) :
    t.leafCount =
      (maximalRuns Char.isAlpha text.toList).ncard +
        (maximalRuns Char.isDigit text.toList).ncard +
          text.toList.countP isOperator := by
  obtain ⟨hfault, htokens⟩ := scan_eq_ok_iff_spells.1 h
  rw [runClass_letters?.ncard_maximalRuns, runClass_digits?.ncard_maximalRuns,
    ← length_atoms_scanTokens hfault, htokens, Tree.tokens, Forms.filterMap_atom?_tokens]
  exact Leaves.count_eq _

/-- A text is read exactly if it is lexically sound, its parentheses balance and
no more of them are open at once than the limit allows. The depth of the tree is
the greatest number of open parentheses, and its leaves are as many as the
maximal runs and the operators of the text. -/
theorem read_accepts_language (text : String) (options : Options) :
    ((∃ t, read text options = .ok t) ↔
        Lexical text.toList ∧
          (∀ taken, taken <+: text.toList →
            0 ≤ parenHeight taken ∧ ∀ limit ∈ options.maxDepth, parenHeight taken ≤ limit) ∧
          parenHeight text.toList = 0) ∧
      ∀ t, read text options = .ok t →
        IsGreatest (profile parenHeight text.toList) t.depth ∧
          t.leafCount =
            (maximalRuns Char.isAlpha text.toList).ncard +
              (maximalRuns Char.isDigit text.toList).ncard +
                text.toList.countP isOperator := by
  obtain ⟨hprofile, hheight⟩ := profile_scanTokens text.toList
  constructor
  · calc
      (∃ t, read text options = .ok t) ↔
          Lexical text.toList ∧ ∃ t, ofTokens (scanTokens text.toList) options = .ok t := by
        simp [read_eq_ok_iff, scan_eq_ok_iff_lexical, and_assoc]
      _ ↔ Lexical text.toList ∧
          (∀ h ∈ profile parenHeight text.toList,
            0 ≤ h ∧ ∀ limit ∈ options.maxDepth, h ≤ limit) ∧
          parenHeight text.toList = 0 := by
        rw [exists_ofTokens_iff_profile, hprofile, hheight]
      _ ↔ _ := by rw [forall_mem_profile]
  · intro t hread
    have hscan := scan_of_read hread
    refine ⟨?_, leafCount_of_scan hscan⟩
    have hdepth := t.isGreatest_depth
    rw [← (scan_eq_ok_iff_lexical.1 hscan).2, ← hprofile] at hdepth
    exact hdepth

/-- The metrics of a text with a run of each class and an operator in two lists. -/
theorem read_accepts_language_nested :
    ∃ t, read "(ab(12 + ))" = .ok t ∧ t.leafCount =
      (maximalRuns Char.isAlpha "(ab(12 + ))".toList).ncard +
        (maximalRuns Char.isDigit "(ab(12 + ))".toList).ncard +
          "(ab(12 + ))".toList.countP isOperator := by
  have hread : read "(ab(12 + ))" =
      .ok ⟨[.list [.symbol "ab", .list [.integer 12, .operator .plus]]]⟩ := by
    decide +kernel
  exact ⟨_, hread, ((read_accepts_language "(ab(12 + ))" {}).2 _ hread).2⟩

end Tree

end SExpr
