import SExpr.Proofs.Runs

/-!
Tidy texts: no space too many or too few, no superfluous zero. `Tidy` asks
something of each character with its two neighbours, and of each number by itself.
Going through a text from its front one need only keep the character behind one
(`TidyFrom`), and within a lexeme there is nothing to be asked.
-/

namespace SExpr

/-- A form may end with the character. -/
def EndsForm (c : Char) : Prop := c.isAlpha ∨ c.isDigit ∨ c = ')'

/-- A form may begin with the character. -/
def BeginsForm (c : Char) : Prop :=
  c.isAlpha ∨ c.isDigit ∨ (∃ op : Operator, op.toChar = c) ∨ c = '('

/-- A text with no space too many or too few, and no superfluous zero. -/
structure Tidy (cs : List Char) : Prop where
  not_space_first : cs.head? ≠ some ' '
  /-- No space stands behind an opening parenthesis or behind a space. -/
  not_space_behind : ∀ a, [a, ' '] <:+: cs → a ≠ '(' ∧ a ≠ ' '
  /-- A space before a closing parenthesis or at the end belongs to an operator. -/
  operator_before : ∀ before behind, cs = before ++ ' ' :: behind →
    behind.head? = none ∨ behind.head? = some ')' →
      ∃ op, before.getLast? = some (Operator.toChar op)
  /-- The end of a form and the beginning of the next are not side by side. -/
  space_between : ∀ a b, [a, b] <:+: cs → EndsForm a → BeginsForm b → Joins a b
  not_leading_zero : ∀ offset run, MaximalRun Char.isDigit cs offset run →
    2 ≤ run.length → run.head? ≠ some '0'

/-! ### Tidiness from the front -/

/-- What tidiness asks of a character between its neighbours. -/
structure TidyAt (before : Option Char) (c : Char) (behind : Option Char) : Prop where
  not_space : c = ' ' → before ≠ none ∧ before ≠ some '(' ∧ before ≠ some ' '
  operator_before : c = ' ' → behind = none ∨ behind = some ')' →
    ∃ op, before = some (Operator.toChar op)
  space_between : ∀ a ∈ before, EndsForm a → BeginsForm c → Joins a c

/-- What tidiness asks of all characters of a text that stands behind a character. -/
def TidyFrom : Option Char → List Char → Prop
  | _, [] => True
  | before, c :: cs => TidyAt before c cs.head? ∧ TidyFrom (some c) cs

theorem tidyFrom_iff_forall {before : Option Char} {cs : List Char} :
    TidyFrom before cs ↔ ∀ front c behind, cs = front ++ c :: behind →
      TidyAt (front.getLast?.or before) c behind.head? := by
  induction cs generalizing before with
  | nil => simp [TidyFrom]
  | cons d cs ih =>
      rw [TidyFrom, ih]
      constructor
      · rintro ⟨hfirst, hrest⟩ front c behind hsplit
        cases front with
        | nil =>
            cases hsplit
            exact hfirst
        | cons e front =>
            cases hsplit
            have := hrest front c behind rfl
            cases hlast : front.getLast? <;> simp_all [List.getLast?_cons]
      · intro h
        refine ⟨h [] d cs rfl, fun front c behind hsplit => ?_⟩
        have := h (d :: front) c behind (by rw [hsplit]; rfl)
        cases hlast : front.getLast? <;> simp_all [List.getLast?_cons]

/-- Whether a lexeme is no number with a superfluous zero. -/
def Lexeme.Plain : Lexeme → Prop
  | digits run => 2 ≤ run.length → run.head? ≠ some '0'
  | _ => True

theorem forall_plain_iff {cs : List Char} :
    (∀ lexeme ∈ Lexeme.ofChars cs, lexeme.Plain) ↔
      ∀ offset run, MaximalRun Char.isDigit cs offset run →
        2 ≤ run.length → run.head? ≠ some '0' := by
  constructor
  · intro h offset run hrun
    exact h _ (exists_maximalRun_isDigit_iff.1 ⟨offset, hrun⟩)
  · intro h lexeme hlexeme
    cases lexeme with
    | digits run =>
        obtain ⟨offset, hrun⟩ := exists_maximalRun_isDigit_iff.2 hlexeme
        exact h offset run hrun
    | _ => trivial

/-- Two neighbours stand in a text where the second has the first before it. -/
theorem pair_isInfix_iff {a b : Char} {cs : List Char} :
    [a, b] <:+: cs ↔ ∃ front behind, cs = front ++ b :: behind ∧ front.getLast? = some a := by
  constructor
  · rintro ⟨front, behind, rfl⟩
    exact ⟨front ++ [a], behind, by simp, by simp⟩
  · rintro ⟨front, behind, rfl, hlast⟩
    obtain ⟨init, rfl⟩ := List.getLast?_eq_some_iff.1 hlast
    exact ⟨init, behind, by simp⟩

theorem tidy_iff_tidyFrom {cs : List Char} :
    Tidy cs ↔ TidyFrom none cs ∧ ∀ lexeme ∈ Lexeme.ofChars cs, lexeme.Plain := by
  rw [forall_plain_iff, tidyFrom_iff_forall]
  simp only [Option.or_none]
  constructor
  · intro h
    refine ⟨?_, h.not_leading_zero⟩
    rintro front c behind hsplit
    refine ⟨?_, ?_, ?_⟩
    · rintro rfl
      refine ⟨fun hnone => h.not_space_first ?_, fun hopen => ?_, fun hspace => ?_⟩
      · obtain rfl := List.getLast?_eq_none_iff.1 hnone
        rw [hsplit]
        rfl
      · exact (h.not_space_behind _ (pair_isInfix_iff.2 ⟨front, behind, hsplit, hopen⟩)).1 rfl
      · exact (h.not_space_behind _ (pair_isInfix_iff.2 ⟨front, behind, hsplit, hspace⟩)).2 rfl
    · rintro rfl hbehind
      exact h.operator_before front behind hsplit hbehind
    · intro a ha
      exact h.space_between a c (pair_isInfix_iff.2 ⟨front, behind, hsplit, ha⟩)
  · rintro ⟨h, hzero⟩
    refine ⟨?_, ?_, ?_, ?_, hzero⟩
    · intro hfirst
      obtain ⟨tail, rfl⟩ := List.head?_eq_some_iff.1 hfirst
      exact ((h [] ' ' tail rfl).not_space rfl).1 rfl
    · intro a hpair
      obtain ⟨front, behind, hsplit, hlast⟩ := pair_isInfix_iff.1 hpair
      have hplace := ((h front ' ' behind hsplit).not_space rfl).2
      rw [hlast] at hplace
      simpa using hplace
    · intro before behind hsplit
      exact (h before ' ' behind hsplit).operator_before rfl
    · intro a b hpair
      obtain ⟨front, behind, hsplit, hlast⟩ := pair_isInfix_iff.1 hpair
      exact (h front b behind hsplit).space_between a hlast

/-! ### Tidiness lexeme by lexeme -/

/-- Before a character that is no space, tidiness looks at the seam only. -/
theorem tidyAt_iff_of_ne_space {before behind : Option Char} {c : Char} (hc : c ≠ ' ') :
    TidyAt before c behind ↔ ∀ a ∈ before, EndsForm a → BeginsForm c → Joins a c :=
  ⟨TidyAt.space_between, fun h => ⟨fun heq => absurd heq hc, fun heq => absurd heq hc, h⟩⟩

/-- Within a run nothing has to be asked. -/
theorem tidyFrom_run {before : Option Char} {run rest : List Char} (hne : run ≠ [])
    (hjoins : ∀ a ∈ run, ∀ c ∈ run, Joins a c) :
    TidyFrom before (run ++ rest) ↔
      (∀ a ∈ before, ∀ c ∈ run.head?, EndsForm a → BeginsForm c → Joins a c) ∧
        TidyFrom run.getLast? rest := by
  induction run generalizing before with
  | nil => exact absurd rfl hne
  | cons c run ih =>
      have hspace : c ≠ ' ' := by
        rintro rfl
        exact apart_space.not_joins_left (hjoins _ List.mem_cons_self _ List.mem_cons_self)
      rw [List.cons_append, TidyFrom, tidyAt_iff_of_ne_space hspace]
      cases run with
      | nil => simp
      | cons d run =>
          have hnext : Joins c d := hjoins c (by simp) d (by simp)
          rw [ih (List.cons_ne_nil d run) fun a ha b hb =>
            hjoins a (List.mem_cons_of_mem c ha) b (List.mem_cons_of_mem c hb)]
          simp [hnext]

theorem Operator.not_endsForm (op : Operator) : ¬ EndsForm op.toChar := by
  simp [EndsForm, op.toChar_class]

theorem not_beginsForm_space : ¬ BeginsForm ' ' := by
  simp [BeginsForm, Operator.toChar_class]

/-- Of a lexeme that a token is kept of, only the first character looks at what stands before. -/
theorem Lexeme.Keeps.tidyFrom_chars {lexeme : Lexeme} {token : Token} {rest : List Char}
    (h : lexeme.Keeps token) (hfits : lexeme.Fits rest) {before : Option Char} :
    TidyFrom before (lexeme.chars ++ rest) ↔
      (∀ a ∈ before, ∀ c ∈ lexeme.chars.head?, EndsForm a → BeginsForm c → Joins a c) ∧
        TidyFrom lexeme.chars.getLast? rest := by
  cases h with
  | openParen => simp [Lexeme.chars, TidyFrom, tidyAt_iff_of_ne_space]
  | closeParen => simp [Lexeme.chars, TidyFrom, tidyAt_iff_of_ne_space]
  | letters run =>
      exact tidyFrom_run hfits.1 fun a ha c hc => .inr ⟨hfits.2.1 a ha, hfits.2.1 c hc⟩
  | @digits run =>
      exact tidyFrom_run hfits.1 fun a ha c hc => .inl ⟨hfits.2.1 a ha, hfits.2.1 c hc⟩
  | operator op =>
      -- the space belongs to the operator, whatever follows it
      have hspace : TidyAt (some op.toChar) ' ' rest.head? :=
        ⟨fun _ => by simp [op.toChar_class], fun _ _ => ⟨op, rfl⟩,
          fun _ _ _ hbegins => absurd hbegins not_beginsForm_space⟩
      simp [Lexeme.chars, TidyFrom, tidyAt_iff_of_ne_space, op.toChar_class, hspace]

end SExpr
