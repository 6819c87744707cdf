import SExpr.Proofs.Layout
import SExpr.Proofs.Numerals
import SExpr.Proofs.RoundTrip
import SExpr.Proofs.Tidy

/-!
The texts that are written as they were read. Both a tidy text and a printed one
are determined by their tokens: where a form has just ended a space is due before
the next, and nowhere else is there any. `Seam` keeps what both sides know of the
text behind them, so a text that is read is the text of its tree exactly if it is
tidy.
-/

namespace SExpr

/-! ### The lexeme of a token -/

namespace Lexeme.Keeps

variable {lexeme : Lexeme} {token : Token} {rest : List Char}

/-- A token begins a form if its first character can. -/
theorem exists_head (h : lexeme.Keeps token) (hfits : lexeme.Fits rest) :
    ∃ c, lexeme.chars.head? = some c ∧ c ≠ ' ' ∧ (BeginsForm c ↔ token.begins) := by
  cases h with
  | openParen => exact ⟨'(', rfl, by decide, by simp [BeginsForm, Token.begins]⟩
  | closeParen =>
      refine ⟨')', rfl, by decide, ?_⟩
      simp [BeginsForm, Token.begins, Operator.toChar_class]
  | letters run =>
      obtain ⟨c, tail, rfl⟩ := List.exists_cons_of_ne_nil hfits.1
      have halpha : c.isAlpha := hfits.2.1 c List.mem_cons_self
      have hspace : c ≠ ' ' := (not_delimiter_of_class (.inr halpha)).1
      exact ⟨c, rfl, hspace, by simp [BeginsForm, Token.begins, halpha]⟩
  | @digits run =>
      obtain ⟨c, tail, rfl⟩ := List.exists_cons_of_ne_nil hfits.1
      have hdigit : c.isDigit := hfits.2.1 c List.mem_cons_self
      have hspace : c ≠ ' ' := (not_delimiter_of_class (.inl hdigit)).1
      exact ⟨c, rfl, hspace, by simp [BeginsForm, Token.begins, hdigit]⟩
  | operator op =>
      exact ⟨op.toChar, rfl, op.toChar_class.1, by simp [BeginsForm, Token.begins]⟩

/-- A token ends a form if its last character can. -/
theorem exists_last (h : lexeme.Keeps token) (hfits : lexeme.Fits rest) :
    ∃ a, lexeme.chars.getLast? = some a ∧ (a = ' ' ∨ a = '(' ∨ EndsForm a) ∧
      (EndsForm a ↔ token.ends) := by
  cases h with
  | openParen => exact ⟨'(', rfl, .inr (.inl rfl), by simp [EndsForm, Token.ends]⟩
  | closeParen => exact ⟨')', rfl, .inr (.inr (.inr (.inr rfl))), by simp [EndsForm, Token.ends]⟩
  | letters run =>
      have hends : EndsForm (run.getLast hfits.1) := .inl (hfits.2.1 _ (List.getLast_mem _))
      have hlast := List.getLast?_eq_some_getLast hfits.1
      exact ⟨_, hlast, .inr (.inr hends), by simp [hends, Token.ends]⟩
  | @digits run =>
      have hends : EndsForm (run.getLast hfits.1) := .inr (.inl (hfits.2.1 _ (List.getLast_mem _)))
      have hlast := List.getLast?_eq_some_getLast hfits.1
      exact ⟨_, hlast, .inr (.inr hends), by simp [hends, Token.ends]⟩
  | operator op => exact ⟨' ', rfl, .inl rfl, by simp [EndsForm, Token.ends]⟩

/-- A token is written as it was read, unless it is a number with a superfluous zero. -/
theorem written_eq_chars_iff (h : lexeme.Keeps token) (hfits : lexeme.Fits rest) :
    lexeme.chars = token.written ↔ lexeme.Plain := by
  cases h with
  | letters run => simp [chars, Token.written, Token.chars, Atom.chars, Plain]
  | @digits run value hword =>
      have hvalue : Text.value run = value.toNat := Word.ofNat?_eq_some_iff.1 hword
      rw [Token.written, Token.chars, Atom.chars, ← hvalue, eq_comm]
      · exact Text.digits_value_eq_self_iff hfits.1 hfits.2.1
      · rintro _ ⟨⟩
  | _ => simp [chars, Token.written, Token.chars, Plain]

end Lexeme.Keeps

/-! ### What is laid out -/

/-- No numeral goes on where a space is written if it is due. -/
theorem not_isDigit_of_layout_true {tokens : List Token} :
    ∀ c ∈ (layout true tokens).head?, ¬ c.isDigit := by
  rcases tokens with _ | ⟨token | token | token, tokens⟩ <;>
    simp [layout, Token.begins, Token.written, Token.chars]

/-- What is laid out is the text if its first token is written as the first lexeme. -/
theorem Lexeme.Keeps.chars_append_eq_iff {lexeme : Lexeme} {token : Token} {rest : List Char}
    (h : lexeme.Keeps token) (hfits : lexeme.Fits rest) (tokens : List Token) :
    lexeme.chars ++ rest = token.written ++ layout token.ends tokens ↔
      lexeme.Plain ∧ rest = layout token.ends tokens := by
  rw [← h.written_eq_chars_iff hfits]
  constructor
  · intro heq
    have hchars : lexeme.chars = token.written := by
      cases h with
      | @digits run value hword =>
          exact append_inj_of_span hfits.2.1 (fun c hc => Text.isDigit_of_mem_digits hc)
            hfits.2.2 not_isDigit_of_layout_true heq
      | _ => simp [Lexeme.chars, Token.written, Token.chars, Atom.chars]
    refine ⟨hchars, ?_⟩
    rw [hchars] at heq
    exact List.append_cancel_left heq
  · rintro ⟨hchars, hrest⟩
    rw [hchars, ← hrest]

theorem Lexeme.Keeps.chars_append_eq_layout_iff {lexeme : Lexeme} {token : Token}
    {rest : List Char} (h : lexeme.Keeps token) (hfits : lexeme.Fits rest) (due : Bool)
    (tokens : List Token) :
    lexeme.chars ++ rest = layout due (token :: tokens) ↔
      ¬ (due ∧ token.begins) ∧ lexeme.Plain ∧ rest = layout token.ends tokens := by
  obtain ⟨c, hhead, hspace, -⟩ := h.exists_head hfits
  obtain ⟨tail, hchars⟩ := List.head?_eq_some_iff.1 hhead
  rw [layout, ← Bool.and_eq_true]
  cases due && token.begins with
  | true => simp [hchars, hspace]
  | false => simpa using h.chars_append_eq_iff hfits tokens

/-- What is written of a token that can be read begins with no space, and with a
closing parenthesis exactly if no form begins. -/
theorem Token.exists_written_head {token : Token}
    (h : ∀ atom, token = .atom atom → atom.Readable) :
    ∃ c, token.written.head? = some c ∧ c ≠ ' ' ∧ (c = ')' ↔ token.begins = false) := by
  rcases token with _ | _ | text | value | op
  · exact ⟨'(', rfl, by decide, by decide⟩
  · exact ⟨')', rfl, by decide, by decide⟩
  · obtain ⟨hne, hletters⟩ := h _ rfl
    obtain ⟨c, tail, htext⟩ := List.exists_cons_of_ne_nil hne
    have halpha : c.isAlpha := hletters c (by simp [htext])
    obtain ⟨hspace, -, hclose⟩ := not_delimiter_of_class (.inr halpha)
    exact ⟨c, congrArg List.head? htext, hspace, by simp [hclose, Token.begins]⟩
  · obtain ⟨c, tail, hdigits⟩ := List.exists_cons_of_ne_nil (Text.digits_ne_nil value.toNat)
    have hdigit : c.isDigit := Text.isDigit_of_mem_digits (hdigits ▸ List.mem_cons_self)
    obtain ⟨hspace, -, hclose⟩ := not_delimiter_of_class (.inl hdigit)
    exact ⟨c, congrArg List.head? hdigits, hspace, by simp [hclose, Token.begins]⟩
  · exact ⟨op.toChar, rfl, op.toChar_class.1, by simp [op.toChar_class, Token.begins]⟩

/-- A space is laid out first exactly if one is due and a form follows it. -/
theorem cons_space_eq_layout_iff {tokens : List Token}
    (h : ∀ atom, .atom atom ∈ tokens → atom.Readable) (rest : List Char) (due : Bool) :
    ' ' :: rest = layout due tokens ↔
      (due ∧ rest.head? ≠ none ∧ rest.head? ≠ some ')') ∧ rest = layout false tokens := by
  cases tokens with
  | nil =>
      simp only [layout, reduceCtorEq, false_iff]
      rintro ⟨⟨-, hnone, -⟩, rfl⟩
      exact hnone rfl
  | cons token tokens =>
      obtain ⟨c, hhead, hspace, hclose⟩ := Token.exists_written_head fun atom heq =>
        h atom (heq ▸ List.mem_cons_self)
      have hfirst : (layout false (token :: tokens)).head? = some c := by
        simp [layout, hhead]
      by_cases hdue : due ∧ token.begins
      · obtain ⟨rfl, hbegins⟩ := hdue
        have hnot : c ≠ ')' := by simp [hclose, hbegins]
        rw [layout_true_of_begins tokens hbegins, List.cons_inj_right]
        constructor
        · rintro rfl
          simp [hfirst, hnot]
        · exact And.right
      · have hlayout : layout due (token :: tokens) = layout false (token :: tokens) := by
          rw [← Bool.and_eq_true] at hdue
          simp [layout, hdue]
        rw [hlayout]
        constructor
        · intro heq
          rw [← heq] at hfirst
          cases hfirst
          exact absurd rfl hspace
        · rintro ⟨⟨rfl, -, hnot⟩, rfl⟩
          rw [hfirst] at hnot
          exact absurd (congrArg some (hclose.2 (by simpa using hdue))) hnot

/-! ### From seam to seam -/

/-- What stands before the rest of a text when a scan goes on there. -/
structure Seam (before : Option Char) (due : Bool) (rest : List Char) : Prop where
  known : ∀ a ∈ before, a = ' ' ∨ a = '(' ∨ EndsForm a
  due_iff : due ↔ ∃ a ∈ before, EndsForm a
  apart : ∀ a ∈ before, ∀ c ∈ rest.head?, ¬ Joins a c

namespace Seam

variable {before : Option Char} {due : Bool} {cs : List Char}

theorem start (cs : List Char) : Seam none false cs :=
  ⟨by simp, by simp, by simp⟩

theorem space (rest : List Char) : Seam (some ' ') false rest := by
  refine ⟨by simp, by simp [EndsForm], ?_⟩
  rintro a ha c -
  cases ha
  exact apart_space.not_joins_left

theorem keeps {lexeme : Lexeme} {token : Token} {rest : List Char} (h : lexeme.Keeps token)
    (hfits : lexeme.Fits rest) : Seam lexeme.chars.getLast? token.ends rest := by
  obtain ⟨a, hlast, hknown, hends⟩ := h.exists_last hfits
  refine ⟨?_, ?_, hfits.not_joins⟩
  · simpa [hlast] using hknown
  · simp [hlast, hends]

/-- A space is tidy where one is due and a form follows. -/
theorem tidyAt_space_iff (h : Seam before due cs) {behind : Option Char} :
    TidyAt before ' ' behind ↔ due ∧ behind ≠ none ∧ behind ≠ some ')' := by
  rw [h.due_iff]
  constructor
  · intro hplace
    obtain ⟨hstart, hopen, hspace⟩ := hplace.not_space rfl
    obtain ⟨a, rfl⟩ := Option.ne_none_iff_exists'.1 hstart
    have hends : EndsForm a := by
      rcases h.known a rfl with rfl | rfl | hends
      · exact absurd rfl hspace
      · exact absurd rfl hopen
      · exact hends
    refine ⟨⟨a, rfl, hends⟩, not_or.1 fun hbehind => ?_⟩
    obtain ⟨op, hop⟩ := hplace.operator_before rfl hbehind
    cases hop
    exact op.not_endsForm hends
  · rintro ⟨⟨a, rfl, hends⟩, hnone, hclose⟩
    refine ⟨fun _ => ?_, fun _ hbehind => ?_, fun _ _ _ hbegins => ?_⟩
    · refine ⟨by simp, ?_, ?_⟩ <;> rintro ⟨⟩ <;> simp [EndsForm] at hends
    · rcases hbehind with hbehind | hbehind
      · exact absurd hbehind hnone
      · exact absurd hbehind hclose
    · exact absurd hbegins not_beginsForm_space

/-- A lexeme may stand where no space is due before it. -/
theorem tidyFrom_chars_iff {lexeme : Lexeme} {token : Token} {rest : List Char}
    (h : Seam before due (lexeme.chars ++ rest)) (hkeeps : lexeme.Keeps token)
    (hfits : lexeme.Fits rest) :
    TidyFrom before (lexeme.chars ++ rest) ↔
      ¬ (due ∧ token.begins) ∧ TidyFrom lexeme.chars.getLast? rest := by
  obtain ⟨c, hhead, -, hbegins⟩ := hkeeps.exists_head hfits
  have hfirst : (lexeme.chars ++ rest).head? = some c := by simp [hhead]
  rw [hkeeps.tidyFrom_chars hfits, h.due_iff, ← hbegins]
  refine and_congr_left fun _ => ?_
  constructor
  · rintro hjoins ⟨⟨a, ha, hends⟩, hform⟩
    exact h.apart a ha c hfirst (hjoins a ha c hhead hends hform)
  · intro hnot a ha d hd hends hform
    cases hhead.symm.trans hd
    exact absurd ⟨⟨a, ha, hends⟩, hform⟩ hnot

end Seam

/-- From any place on, a text is tidy exactly if it is what is laid out of its tokens. -/
theorem tidyFrom_iff_layout {cs : List Char}
    (hfault : ∀ lexeme ∈ Lexeme.ofChars cs, lexeme.fault? = none) {before : Option Char}
    {due : Bool} (hseam : Seam before due cs) :
    (TidyFrom before cs ∧ ∀ lexeme ∈ Lexeme.ofChars cs, lexeme.Plain) ↔
      cs = layout due (scanTokens cs) := by
  induction cs using Lexeme.induction generalizing before due with
  | nil => simp [TidyFrom, scanTokens, layout]
  | cons lexeme rest hfits ih =>
      rw [Lexeme.ofChars_of_fits hfits, List.forall_mem_cons] at hfault ⊢
      rw [scanTokens_of_fits hfits]
      rcases Lexeme.eq_blank_or_keeps hfault.1 with rfl | ⟨token, hkeeps⟩
      · have hrest := ih hfault.2 (Seam.space rest)
        have hreadable (atom : Atom) (hatom : .atom atom ∈ scanTokens rest) : atom.Readable :=
          readable_of_mem_scanTokens hatom
        show (TidyAt before ' ' rest.head? ∧ TidyFrom (some ' ') rest) ∧ _ ↔
          ' ' :: rest = layout due (scanTokens rest)
        rw [cons_space_eq_layout_iff hreadable, hseam.tidyAt_space_iff, ← hrest]
        simp [Lexeme.Plain, and_assoc]
      · rw [hkeeps.kept?, Option.toList_some, List.singleton_append,
          hseam.tidyFrom_chars_iff hkeeps hfits, hkeeps.chars_append_eq_layout_iff hfits,
          ← ih hfault.2 (Seam.keeps hkeeps hfits)]
        simp [and_assoc, and_left_comm]

theorem tidy_iff_eq_layout {cs : List Char}
    (hfault : ∀ lexeme ∈ Lexeme.ofChars cs, lexeme.fault? = none) :
    Tidy cs ↔ cs = layout false (scanTokens cs) := by
  rw [tidy_iff_tidyFrom, tidyFrom_iff_layout hfault (Seam.start cs)]

namespace Tree

/-- A text that is read is the text of its tree exactly if it is tidy. -/
theorem text_eq_iff_tidy {text : String} {options : Options} {t : Tree}
    (h : read text options = .ok t) : t.text = text ↔ Tidy text.toList := by
  obtain ⟨hfault, htokens⟩ := scan_eq_ok_iff_spells.1 (scan_of_read h)
  calc
    t.text = text ↔ t.chars = text.toList := by
      rw [Tree.text, ← String.toList_inj, String.toList_ofList]
    _ ↔ text.toList = layout false (scanTokens text.toList) := by
      rw [t.chars_eq_layout, htokens, eq_comm]
    _ ↔ Tidy text.toList := (tidy_iff_eq_layout hfault).symm

/-- One space between two forms and one behind an operator; any other spacing, and a
superfluous zero, is read but not written again. -/
theorem text_eq_iff_tidy_nested :
    Tidy "(a (+ ) 10)".toList ∧ ¬ Tidy "(a(+  )010)".toList := by
  have htidy : read "(a (+ ) 10)" =
      .ok ⟨[.list [.symbol "a", .list [.operator .plus], .integer 10]]⟩ := by
    decide +kernel
  have hloose : read "(a(+  )010)" =
      .ok ⟨[.list [.symbol "a", .list [.operator .plus], .integer 10]]⟩ := by
    decide +kernel
  refine ⟨(text_eq_iff_tidy htidy).1 (by decide +kernel), fun h => ?_⟩
  exact absurd ((text_eq_iff_tidy hloose).2 h) (by decide +kernel)

end Tree

end SExpr
