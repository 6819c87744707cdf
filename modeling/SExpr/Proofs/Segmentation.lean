import SExpr.Lexeme

/-!
How a text falls into lexemes. `Lexeme.Fits` says of the characters alone which
lexeme a text begins with: a run that cannot be made longer, an operator with or
without its space. Every text begins with a lexeme that fits, and only one does,
so what holds of all texts is proved lexeme by lexeme (`Lexeme.induction`), and
two texts can be joined wherever the last lexeme of the first still fits.
-/

namespace SExpr

/-! ### Classes of characters -/

/-- The characters that a text may be made of. -/
def InAlphabet (c : Char) : Prop :=
  c = ' ' ∨ c = '(' ∨ c = ')' ∨ (∃ op : Operator, op.toChar = c) ∨ c.isDigit ∨ c.isAlpha

/-- Two characters that one run would hold if they stood side by side. -/
def Joins (a b : Char) : Prop :=
  (a.isDigit ∧ b.isDigit) ∨ (a.isAlpha ∧ b.isAlpha)

theorem not_isAlpha_of_isDigit {c : Char} (h : c.isDigit) : ¬ c.isAlpha := by
  have hdigit : c.toNat ≤ 57 := (Char.isDigit_iff_toNat.1 h).2
  intro halpha
  -- the letters are two intervals, both above the digits
  rcases Bool.or_eq_true_iff.1 halpha with hupper | hlower
  · have hfirst : 65 ≤ c.toNat := (of_decide_eq_true hupper).1
    omega
  · have hfirst : 97 ≤ c.toNat := of_decide_eq_true (Bool.and_eq_true_iff.1 hlower).1
    omega

/-- No digit and no letter stands between tokens or delimits a list. -/
theorem not_delimiter_of_class {c : Char} (h : c.isDigit ∨ c.isAlpha) :
    c ≠ ' ' ∧ c ≠ '(' ∧ c ≠ ')' := by
  refine ⟨?_, ?_, ?_⟩
  all_goals rintro rfl; simp at h

theorem Operator.toChar_class (op : Operator) :
    op.toChar ≠ ' ' ∧ op.toChar ≠ '(' ∧ op.toChar ≠ ')' ∧
      op.toChar.isDigit = false ∧ op.toChar.isAlpha = false := by
  cases op <;> decide

/-- A character is an operator's only if it is in no other class. -/
theorem Operator.ofChar?_eq_none_of_class {c : Char}
    (h : c = ' ' ∨ c = '(' ∨ c = ')' ∨ c.isDigit ∨ c.isAlpha) : Operator.ofChar? c = none := by
  rw [Operator.ofChar?_eq_none_iff]
  rintro op rfl
  obtain ⟨hspace, hopen, hclose, hdigit, halpha⟩ := op.toChar_class
  simp_all

/-- A run ends where the first character outside its class stands. -/
theorem span_run {p : Char → Bool} {run rest : List Char} (hrun : ∀ c ∈ run, p c)
    (hrest : ∀ c ∈ rest.head?, ¬ p c) :
    (run ++ rest).takeWhile p = run ∧ (run ++ rest).dropWhile p = rest := by
  rw [List.takeWhile_append_of_pos hrun, List.dropWhile_append_of_pos hrun]
  cases rest with
  | nil => simp
  | cons c rest =>
      have hc : ¬ p c := hrest c rfl
      simp [hc]

/-- A text splits in one way into a run of a class and a rest that does not go on with it. -/
theorem append_inj_of_span {p : Char → Bool} {run run' rest rest' : List Char}
    (hrun : ∀ c ∈ run, p c) (hrun' : ∀ c ∈ run', p c) (hrest : ∀ c ∈ rest.head?, ¬ p c)
    (hrest' : ∀ c ∈ rest'.head?, ¬ p c) (h : run ++ rest = run' ++ rest') : run = run' := by
  rw [← (span_run hrun hrest).1, h, (span_run hrun' hrest').1]

/-- Every text is a run of a class, maybe an empty one, and a rest that does not go on with it. -/
theorem span_class (p : Char → Bool) (cs : List Char) :
    (∀ c ∈ cs.takeWhile p, p c) ∧ ∀ c ∈ (cs.dropWhile p).head?, ¬ p c := by
  refine ⟨List.all_eq_true.1 List.all_takeWhile, fun c hc => ?_⟩
  have hnot := List.head?_dropWhile_not p cs
  rw [Option.mem_def.1 hc] at hnot
  simpa using hnot

namespace Lexeme

/-! ### Lexemes in their place -/

/-- What makes a lexeme the one that a text begins with, when `rest` follows it. -/
def Fits : Lexeme → List Char → Prop
  | blank, _ | openParen, _ | closeParen, _ | operator _, _ => True
  | letters run, rest => run ≠ [] ∧ (∀ c ∈ run, c.isAlpha) ∧ ∀ c ∈ rest.head?, ¬ c.isAlpha
  | digits run, rest => run ≠ [] ∧ (∀ c ∈ run, c.isDigit) ∧ ∀ c ∈ rest.head?, ¬ c.isDigit
  | bareOperator _, rest => rest.head? ≠ some ' '
  | foreign c, _ => ¬ InAlphabet c

theorem Fits.chars_ne_nil {lexeme : Lexeme} {rest : List Char} (h : lexeme.Fits rest) :
    lexeme.chars ≠ [] := by
  cases lexeme with
  | letters run => exact h.1
  | digits run => exact h.1
  | _ => simp [chars]

theorem Fits.length_pos {lexeme : Lexeme} {rest : List Char} (h : lexeme.Fits rest) :
    0 < lexeme.chars.length :=
  List.length_pos_iff.2 h.chars_ne_nil

/-- Only the first character of the text behind a lexeme matters. -/
theorem Fits.of_head?_eq {lexeme : Lexeme} {rest rest' : List Char} (h : lexeme.Fits rest)
    (hhead : rest'.head? = rest.head?) : lexeme.Fits rest' := by
  cases lexeme <;> simp_all [Fits]

theorem Fits.no_paren {lexeme : Lexeme} {rest : List Char} (h : lexeme.Fits rest)
    (hopen : lexeme ≠ openParen) (hclose : lexeme ≠ closeParen) :
    ∀ c ∈ lexeme.chars, c ≠ '(' ∧ c ≠ ')' := by
  cases lexeme with
  | openParen => exact absurd rfl hopen
  | closeParen => exact absurd rfl hclose
  | blank => simp [chars]
  | letters run => exact fun c hc => (not_delimiter_of_class (.inr (h.2.1 c hc))).2
  | digits run => exact fun c hc => (not_delimiter_of_class (.inl (h.2.1 c hc))).2
  | operator op => simp [chars, op.toChar_class]
  | bareOperator op => simp [chars, op.toChar_class]
  | foreign c =>
      simp only [Fits, InAlphabet, not_or] at h
      simp [chars, h]

/-- The first lexeme of a text fits where it stands. -/
theorem fits_split (c : Char) (rest : List Char) :
    (split c rest).1.Fits (split c rest).2 := by
  obtain ⟨hdigits, hnoDigit⟩ := span_class Char.isDigit rest
  obtain ⟨hletters, hnoLetter⟩ := span_class Char.isAlpha rest
  unfold split
  split
  · trivial
  split
  · trivial
  split
  · trivial
  split
  case isTrue hdigit =>
    exact ⟨List.cons_ne_nil _ _, List.forall_mem_cons.2 ⟨hdigit, hdigits⟩, hnoDigit⟩
  split
  case isTrue halpha =>
    exact ⟨List.cons_ne_nil _ _, List.forall_mem_cons.2 ⟨halpha, hletters⟩, hnoLetter⟩
  split
  case h_1 => trivial
  case h_2 op _ hrest =>
    intro hhead
    obtain ⟨tail, rfl⟩ := List.head?_eq_some_iff.1 hhead
    exact hrest tail rfl
  case h_3 hop =>
    simp_all [Fits, InAlphabet, Operator.ofChar?_eq_none_iff]

/-- A text begins with no lexeme but the one that fits. -/
theorem split_of_fits {lexeme : Lexeme} {rest : List Char} (h : lexeme.Fits rest)
    {c : Char} {tail : List Char} (hchars : lexeme.chars = c :: tail) :
    split c (tail ++ rest) = (lexeme, rest) := by
  cases lexeme with
  | blank =>
      cases hchars
      rfl
  | openParen =>
      cases hchars
      rfl
  | closeParen =>
      cases hchars
      rfl
  | letters run =>
      obtain ⟨-, hrun, hrest⟩ := h
      obtain rfl : run = c :: tail := hchars
      have halpha : c.isAlpha := hrun c (by simp)
      have hclass := not_delimiter_of_class (.inr halpha)
      have hdigit : ¬ c.isDigit := fun hdigit => not_isAlpha_of_isDigit hdigit halpha
      obtain ⟨htake, hdrop⟩ := span_run (fun d hd => hrun d (List.mem_cons_of_mem c hd)) hrest
      simp [split, hclass, hdigit, halpha, htake, hdrop]
  | digits run =>
      obtain ⟨-, hrun, hrest⟩ := h
      obtain rfl : run = c :: tail := hchars
      have hdigit : c.isDigit := hrun c (by simp)
      have hclass := not_delimiter_of_class (.inl hdigit)
      obtain ⟨htake, hdrop⟩ := span_run (fun d hd => hrun d (List.mem_cons_of_mem c hd)) hrest
      simp [split, hclass, hdigit, htake, hdrop]
  | operator op =>
      cases hchars
      simp [split, op.toChar_class]
  | bareOperator op =>
      cases hchars
      -- rules out the branch of an operator with its space
      have hspace : ∀ tail, rest ≠ ' ' :: tail := by
        rintro tail rfl
        exact h rfl
      simp [split, op.toChar_class]
  | foreign c =>
      cases hchars
      simp only [Fits, InAlphabet, not_or, not_exists] at h
      simp [split, h, Operator.ofChar?_eq_none_iff.2 h.2.2.2.1]

/-! ### The lexemes of a text -/

/-- The lexemes that a text falls into, from its front. -/
def ofChars : List Char → List Lexeme
  | [] => []
  | c :: rest => (split c rest).1 :: ofChars (split c rest).2
termination_by cs => cs.length
decreasing_by exact length_split_lt c rest

@[simp] theorem ofChars_nil : ofChars [] = [] := by
  rw [ofChars]

theorem ofChars_of_fits {lexeme : Lexeme} {rest : List Char} (h : lexeme.Fits rest) :
    ofChars (lexeme.chars ++ rest) = lexeme :: ofChars rest := by
  obtain ⟨c, tail, hchars⟩ := List.exists_cons_of_ne_nil h.chars_ne_nil
  rw [hchars, List.cons_append, ofChars, split_of_fits h hchars]

/-- Every text is empty or begins with a lexeme that fits, so it is enough to go
through a text lexeme by lexeme. -/
@[elab_as_elim]
theorem induction {motive : List Char → Prop} (nil : motive [])
    (cons : ∀ (lexeme : Lexeme) (rest : List Char), lexeme.Fits rest → motive rest →
      motive (lexeme.chars ++ rest)) :
    ∀ cs, motive cs
  | [] => nil
  | c :: rest => by
      have hmotive := cons (split c rest).1 (split c rest).2 (fits_split c rest)
        (induction nil cons (split c rest).2)
      rwa [split_chars] at hmotive
termination_by cs => cs.length
decreasing_by exact length_split_lt c rest

/-- The lexemes make up the text again. -/
theorem flatMap_chars_ofChars (cs : List Char) : (ofChars cs).flatMap chars = cs := by
  induction cs using Lexeme.induction with
  | nil => simp
  | cons lexeme rest hfits ih => rw [ofChars_of_fits hfits, List.flatMap_cons, ih]

/-- Each lexeme of a text fits before what follows it. -/
theorem exists_fits_of_mem_ofChars {lexeme : Lexeme} {cs : List Char}
    (h : lexeme ∈ ofChars cs) : ∃ rest, lexeme.Fits rest := by
  induction cs using Lexeme.induction with
  | nil => simp at h
  | cons first rest hfits ih =>
      rw [ofChars_of_fits hfits, List.mem_cons] at h
      rcases h with rfl | h
      · exact ⟨rest, hfits⟩
      · exact ih h

/-- A lexeme that fits before a text fits before each part of it from its front. -/
theorem Fits.of_prefix {lexeme : Lexeme} {front rest : List Char} (h : lexeme.Fits rest)
    (hfront : front <+: rest) : lexeme.Fits front := by
  cases front with
  | nil => cases lexeme <;> simp_all [Fits]
  | cons c front =>
      obtain ⟨behind, rfl⟩ := hfront
      exact h.of_head?_eq rfl

/-- The first lexemes of a text are the lexemes of the text that they make up. -/
theorem ofChars_flatMap_of_prefix {cs : List Char} {lexemes : List Lexeme}
    (h : lexemes <+: ofChars cs) : ofChars (lexemes.flatMap chars) = lexemes := by
  induction cs using Lexeme.induction generalizing lexemes with
  | nil =>
      rw [ofChars_nil, List.prefix_nil] at h
      simp [h]
  | cons lexeme rest hfits ih =>
      rw [ofChars_of_fits hfits, List.prefix_cons_iff] at h
      rcases h with rfl | ⟨front, rfl, hfront⟩
      · simp
      · obtain ⟨behind, hbehind⟩ := hfront
        have hrest : front.flatMap chars <+: rest := by
          rw [← flatMap_chars_ofChars rest, ← hbehind, List.flatMap_append]
          exact List.prefix_append _ _
        rw [List.flatMap_cons, ofChars_of_fits (hfits.of_prefix hrest), ih ⟨behind, hbehind⟩]

/-! ### Joining two texts -/

/-- A lexeme at the end of a text fits before whatever does not belong to it. -/
theorem Fits.of_not_joins {lexeme : Lexeme} {rest : List Char} (h : lexeme.Fits [])
    (hjoins : ∀ a ∈ lexeme.chars.getLast?, ∀ b ∈ rest.head?, ¬ Joins a b)
    (hspace : ∀ op, lexeme = bareOperator op → rest.head? ≠ some ' ') : lexeme.Fits rest := by
  cases lexeme with
  | letters run =>
      refine ⟨h.1, h.2.1, fun b hb halpha => ?_⟩
      have hlast := List.getLast?_eq_some_getLast h.1
      exact hjoins _ hlast b hb (.inr ⟨h.2.1 _ (List.getLast_mem h.1), halpha⟩)
  | digits run =>
      refine ⟨h.1, h.2.1, fun b hb hdigit => ?_⟩
      have hlast := List.getLast?_eq_some_getLast h.1
      exact hjoins _ hlast b hb (.inl ⟨h.2.1 _ (List.getLast_mem h.1), hdigit⟩)
  | bareOperator op => exact hspace op rfl
  | _ => exact h

/-- No run goes on behind a lexeme that fits. -/
theorem Fits.not_joins {lexeme : Lexeme} {rest : List Char} (h : lexeme.Fits rest) :
    ∀ a ∈ lexeme.chars.getLast?, ∀ b ∈ rest.head?, ¬ Joins a b := by
  intro a ha b hb
  have hmem : a ∈ lexeme.chars := List.mem_of_getLast? ha
  cases lexeme with
  | letters run =>
      have halpha : a.isAlpha := h.2.1 a hmem
      rintro (⟨hdigit, -⟩ | ⟨-, hb'⟩)
      · exact not_isAlpha_of_isDigit hdigit halpha
      · exact h.2.2 b hb hb'
  | digits run =>
      have hdigit : a.isDigit := h.2.1 a hmem
      rintro (⟨-, hb'⟩ | ⟨halpha, -⟩)
      · exact h.2.2 b hb hb'
      · exact not_isAlpha_of_isDigit hdigit halpha
  | operator op =>
      obtain rfl : ' ' = a := by simpa [chars] using ha
      simp [Joins]
  | bareOperator op =>
      obtain rfl : op.toChar = a := by simpa [chars] using ha
      simp [Joins, op.toChar_class]
  | foreign c =>
      obtain rfl : c = a := by simpa [chars] using ha
      simp only [Fits, InAlphabet, not_or] at h
      simp [Joins, h]
  | _ =>
      cases List.mem_singleton.1 hmem
      simp [Joins]

/-- Two texts side by side fall into the lexemes of the one and of the other, if
nothing at the end of the first belongs to the second. -/
theorem ofChars_append {as bs : List Char}
    (hjoins : ∀ a ∈ as.getLast?, ∀ b ∈ bs.head?, ¬ Joins a b)
    (hspace : ∀ op, (ofChars as).getLast? = some (bareOperator op) → bs.head? ≠ some ' ') :
    ofChars (as ++ bs) = ofChars as ++ ofChars bs := by
  induction as using Lexeme.induction with
  | nil => simp
  | cons lexeme rest hfits ih =>
      rw [ofChars_of_fits hfits] at hspace ⊢
      have hfits' : lexeme.Fits (rest ++ bs) := by
        -- only the last lexeme of the first text comes to stand before the second
        cases rest with
        | nil =>
            refine hfits.of_not_joins (by simpa using hjoins) ?_
            rintro op rfl
            exact hspace op (by simp)
        | cons c rest => exact hfits.of_head?_eq rfl
      rw [List.append_assoc, ofChars_of_fits hfits', List.cons_append]
      cases rest with
      | nil => simp
      | cons c rest =>
          rw [ih]
          · simpa [List.getLast?_append] using hjoins
          · intro op hop
            exact hspace op (by simp [List.getLast?_cons, hop])

end Lexeme

end SExpr
