import Mathlib.Data.Set.Card
import SExpr.Proofs.Faults
import SExpr.Proofs.Printing

/-!
The maximal runs of a text. A run of letters or of digits that cannot be made
longer is a lexeme, and a lexeme made of letters or of digits is such a run; so
maximal runs can be looked up and counted among the lexemes.
-/

namespace SExpr

namespace Lexeme

/-- The run of letters that a lexeme is. -/
def letters? : Lexeme → Option (List Char)
  | letters run => some run
  | _ => none

/-- The run of digits that a lexeme is. -/
def digits? : Lexeme → Option (List Char)
  | digits run => some run
  | _ => none

theorem letters?_eq_some_iff {lexeme : Lexeme} {run : List Char} :
    lexeme.letters? = some run ↔ lexeme = letters run := by
  cases lexeme <;> simp [letters?]

theorem digits?_eq_some_iff {lexeme : Lexeme} {run : List Char} :
    lexeme.digits? = some run ↔ lexeme = digits run := by
  cases lexeme <;> simp [digits?]

end Lexeme

/-- The lexemes that are runs of a class hold characters of the class only and do
not go on behind their end; the others hold none of its characters. -/
structure RunClass (p : Char → Bool) (run? : Lexeme → Option (List Char)) : Prop where
  of_some : ∀ {lexeme rest run}, Lexeme.Fits lexeme rest → run? lexeme = some run →
    lexeme.chars = run ∧ (∀ c ∈ run, p c) ∧ ∀ c ∈ rest.head?, ¬ p c
  of_none : ∀ {lexeme rest}, Lexeme.Fits lexeme rest → run? lexeme = none →
    ∀ c ∈ lexeme.chars, ¬ p c

/-- A lexeme that is no run holds neither letters nor digits. -/
theorem Lexeme.Fits.apart {lexeme : Lexeme} {rest : List Char} (h : lexeme.Fits rest)
    (hletters : lexeme.letters? = none) (hdigits : lexeme.digits? = none) :
    ∀ c ∈ lexeme.chars, Apart c := by
  cases lexeme with
  | letters run => cases hletters
  | digits run => cases hdigits
  | operator op => simp [chars, Apart, op.toChar_class]
  | bareOperator op => simp [chars, Apart, op.toChar_class]
  | foreign c =>
      simp only [Fits, InAlphabet, not_or] at h
      simp [chars, Apart, h]
  | _ => simp [chars, Apart]

theorem runClass_letters? : RunClass Char.isAlpha Lexeme.letters? where
  of_some {lexeme rest run} h hrun := by
    obtain rfl := Lexeme.letters?_eq_some_iff.1 hrun
    exact ⟨rfl, h.2⟩
  of_none {lexeme rest} h hrun c hc := by
    cases hdigits : lexeme.digits? with
    | none => simp [(h.apart hrun hdigits c hc).2]
    | some run =>
        obtain rfl := Lexeme.digits?_eq_some_iff.1 hdigits
        exact not_isAlpha_of_isDigit (h.2.1 c hc)

theorem runClass_digits? : RunClass Char.isDigit Lexeme.digits? where
  of_some {lexeme rest run} h hrun := by
    obtain rfl := Lexeme.digits?_eq_some_iff.1 hrun
    exact ⟨rfl, h.2⟩
  of_none {lexeme rest} h hrun c hc := by
    cases hletters : lexeme.letters? with
    | none => simp [(h.apart hletters hrun c hc).1]
    | some run =>
        obtain rfl := Lexeme.letters?_eq_some_iff.1 hletters
        exact fun hdigit => not_isAlpha_of_isDigit hdigit (h.2.1 c hc)

namespace RunClass

variable {p : Char → Bool} {run? : Lexeme → Option (List Char)}

theorem maximalRun_front_iff (hp : RunClass p run?) {lexeme : Lexeme} {rest run : List Char}
    {offset : Nat} (h : lexeme.Fits rest) (hoffset : offset < lexeme.chars.length) :
    MaximalRun p (lexeme.chars ++ rest) offset run ↔ offset = 0 ∧ run? lexeme = some run := by
  cases hrun : run? lexeme with
  | none => simp [not_maximalRun_front (hp.of_none h hrun) hoffset]
  | some run' =>
      obtain ⟨rfl, hclass⟩ := hp.of_some h hrun
      rw [SExpr.maximalRun_front_iff hclass hoffset, Option.some.injEq, eq_comm (a := run)]

theorem maximalRun_behind_iff (hp : RunClass p run?) {lexeme : Lexeme} {rest run : List Char}
    {offset : Nat} (h : lexeme.Fits rest) :
    MaximalRun p (lexeme.chars ++ rest) (lexeme.chars.length + offset) run ↔
      MaximalRun p rest offset run := by
  apply maximalRun_append_iff
  rintro a ha b hb ⟨hpa, hpb⟩
  cases hrun : run? lexeme with
  | none => exact hp.of_none h hrun a (List.mem_of_getLast? ha) hpa
  | some run' => exact (hp.of_some h hrun).2.2 b hb hpb

/-- The maximal runs of a text are the runs among its lexemes. -/
theorem maximalRun_iff_mem_row (hp : RunClass p run?) {cs run : List Char} {offset : Nat} :
    MaximalRun p cs offset run ↔ ∃ lexeme, ⟨offset, lexeme⟩ ∈ Placed.row 0 (Lexeme.ofChars cs) ∧
      run? lexeme = some run := by
  have hnil (offset : Nat) (run : List Char) : ¬ MaximalRun p [] offset run := by
    intro h
    obtain ⟨c, hc, -⟩ := h.exists_head
    simp at hc
  have hrow := Placed.exists_mem_row_iff hnil
    (fun _ _ _ _ h hoffset => hp.maximalRun_front_iff h hoffset)
    (fun _ _ _ _ h => hp.maximalRun_behind_iff h) cs 0 offset run
  rw [← hrow, Nat.zero_add]

end RunClass

/-- The runs among the lexemes of a row, with their places. -/
def Placed.runs (run? : Lexeme → Option (List Char)) (row : List Placed) :
    List (Nat × List Char) :=
  row.filterMap fun placed => (run? placed.lexeme).map (placed.offset, ·)

theorem Placed.mem_runs_iff {run? : Lexeme → Option (List Char)} {row : List Placed}
    {offset : Nat} {run : List Char} :
    (offset, run) ∈ runs run? row ↔ ∃ lexeme, ⟨offset, lexeme⟩ ∈ row ∧ run? lexeme = some run := by
  rw [runs, List.mem_filterMap]
  constructor
  · rintro ⟨⟨place, lexeme⟩, hmem, hplaced⟩
    obtain ⟨_, hrun, heq⟩ := Option.map_eq_some_iff.1 hplaced
    cases heq
    exact ⟨lexeme, hmem, hrun⟩
  · rintro ⟨lexeme, hmem, hrun⟩
    exact ⟨⟨offset, lexeme⟩, hmem, by simp [hrun]⟩

/-- The maximal runs of a class in a text, each with its place. -/
def maximalRuns (p : Char → Bool) (cs : List Char) : Set (Nat × List Char) :=
  {r | MaximalRun p cs r.1 r.2}

/-- There are as many maximal runs as there are runs among the lexemes. -/
theorem RunClass.ncard_maximalRuns {p : Char → Bool} {run? : Lexeme → Option (List Char)}
    (hp : RunClass p run?) (cs : List Char) :
    (maximalRuns p cs).ncard = ((Lexeme.ofChars cs).filterMap run?).length := by
  have hnodup : (Placed.runs run? (Placed.row 0 (Lexeme.ofChars cs))).Nodup := by
    have hordered : (Placed.runs run? (Placed.row 0 (Lexeme.ofChars cs))).Pairwise
        (·.1 < ·.1) := by
      refine pairwise_filterMap_row (fun p r hr => ?_) cs
      obtain ⟨run, -, rfl⟩ := Option.map_eq_some_iff.1 hr
      rfl
    exact hordered.imp fun hlt heq => Nat.ne_of_lt hlt (congrArg Prod.fst heq)
  have hset : maximalRuns p cs =
      (Placed.runs run? (Placed.row 0 (Lexeme.ofChars cs))).toFinset := by
    ext ⟨offset, run⟩
    rw [maximalRuns, Set.mem_ofPred_eq, hp.maximalRun_iff_mem_row, Finset.mem_coe,
      List.mem_toFinset, Placed.mem_runs_iff]
  have hlexemes : (Placed.runs run? (Placed.row 0 (Lexeme.ofChars cs))).map Prod.snd =
      (Lexeme.ofChars cs).filterMap run? := by
    rw [← Placed.map_lexeme_row 0 (Lexeme.ofChars cs), List.filterMap_map, Placed.runs,
      List.map_filterMap, Placed.map_lexeme_row]
    simp [Function.comp_def]
  rw [hset, Set.ncard_coe_finset, List.toFinset_card_of_nodup hnodup, ← hlexemes, List.length_map]

/-- The maximal runs of digits are the lexemes of digits. -/
theorem exists_maximalRun_isDigit_iff {cs run : List Char} :
    (∃ offset, MaximalRun Char.isDigit cs offset run) ↔ .digits run ∈ Lexeme.ofChars cs := by
  simp only [runClass_digits?.maximalRun_iff_mem_row, Lexeme.digits?_eq_some_iff]
  rw [← Placed.map_lexeme_row 0 (Lexeme.ofChars cs), List.mem_map, Placed.map_lexeme_row]
  constructor
  · rintro ⟨offset, lexeme, hmem, rfl⟩
    exact ⟨_, hmem, rfl⟩
  · rintro ⟨⟨offset, lexeme⟩, hmem, rfl⟩
    exact ⟨offset, _, hmem, rfl⟩

end SExpr
