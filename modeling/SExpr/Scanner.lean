import SExpr.Lexeme

/-!
Scanning. A scanner goes through a text lexeme by lexeme and keeps the tokens
it finds with their places. A faulty lexeme stops it behind that lexeme; it can
be run again from there, and still has what it found before.
-/

namespace SExpr

/-- A token and the place of its first character in the text. -/
structure Located where
  offset : Nat
  token : Token
  deriving DecidableEq

structure Scanner where
  /-- What is left of the text. -/
  rest : List Char
  /-- The number of characters consumed. -/
  offset : Nat
  /-- The tokens found and not yet handed out, the latest first. -/
  found : List Located
  deriving DecidableEq

namespace Scanner

def ofText (text : String) : Scanner := ⟨text.toList, 0, []⟩

/-- Consumes the first lexeme and says what is wrong with it, if anything;
at the end of the text there is none. -/
def step : Scanner → Option (Option ScanError × Scanner)
  | ⟨[], _, _⟩ => none
  | ⟨c :: rest, offset, found⟩ =>
    let (lexeme, rest) := Lexeme.split c rest
    let behind := offset + lexeme.chars.length
    match lexeme.token? with
    | .ok none => some (none, ⟨rest, behind, found⟩)
    | .ok (some token) => some (none, ⟨rest, behind, ⟨offset, token⟩ :: found⟩)
    | .error fault => some (some ⟨fault, offset⟩, ⟨rest, behind, found⟩)

theorem step_eq_none_iff {s : Scanner} : s.step = none ↔ s.rest = [] := by
  obtain ⟨_ | ⟨c, rest⟩, offset, found⟩ := s
  · simp [step]
  · simp only [step]
    split <;> simp

/-- A step consumes one lexeme, and only what is left of the text is read later. -/
theorem exists_lexeme_of_step {s next : Scanner} {error? : Option ScanError}
    (h : s.step = some (error?, next)) :
    ∃ lexeme : Lexeme, lexeme.chars ≠ [] ∧ lexeme.chars ++ next.rest = s.rest ∧
      next.offset = s.offset + lexeme.chars.length := by
  obtain ⟨_ | ⟨c, rest⟩, offset, found⟩ := s
  · simp [step] at h
  · refine ⟨(Lexeme.split c rest).1, Lexeme.chars_split_ne_nil c rest, ?_⟩
    simp only [step] at h
    split at h <;> cases h <;> exact ⟨Lexeme.split_chars c rest, rfl⟩

theorem length_rest_step_lt {s next : Scanner} {error? : Option ScanError}
    (h : s.step = some (error?, next)) : next.rest.length < s.rest.length := by
  obtain ⟨lexeme, hne, hrest, -⟩ := exists_lexeme_of_step h
  have := List.length_pos_iff.2 hne
  rw [← hrest, List.length_append]
  omega

/-- Steps to the end of the text, or behind the first faulty lexeme. -/
def run (s : Scanner) : Option ScanError × Scanner :=
  match _ : s.step with
  | none => (none, s)
  | some (none, next) => run next
  | some (some error, next) => (some error, next)
termination_by s.rest.length
decreasing_by exact length_rest_step_lt ‹_›

theorem run_of_step_none {s : Scanner} (h : s.step = none) : s.run = (none, s) := by
  rw [run]
  split <;> simp_all

theorem run_of_step_ok {s next : Scanner} (h : s.step = some (none, next)) :
    s.run = next.run := by
  rw [run]
  split <;> simp_all

theorem run_of_step_error {s next : Scanner} {error : ScanError}
    (h : s.step = some (some error, next)) : s.run = (some error, next) := by
  rw [run]
  split <;> simp_all

/-- The tokens found so far, in the order of the text. -/
def tokens (s : Scanner) : List Token := s.found.reverse.map Located.token

/-- Runs a scanner and hands out its tokens, which leaves it without any; after
an error it keeps them. -/
def scan (s : Scanner) : Except ScanError (List Token) × Scanner :=
  match s.run with
  | (none, next) => (.ok next.tokens, { next with found := [] })
  | (some error, next) => (.error error, next)

/-- The results of `n` scans, one after the other. -/
def scans : Nat → Scanner → List (Except ScanError (List Token))
  | 0, _ => []
  | n + 1, s => s.scan.1 :: scans n s.scan.2

end Scanner

/-- The tokens of a text. -/
def scan (text : String) : Except ScanError (List Token) :=
  (Scanner.ofText text).scan.1

end SExpr
