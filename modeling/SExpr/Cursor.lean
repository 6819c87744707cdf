import SExpr.Scanner

/-!
A scanner that keeps the whole text and two places in it: where the lexeme begins that is
being read, and where the next character stands. Reading a character and cutting a lexeme
out of the text are possible only within the text, and have no result outside it.
-/

namespace SExpr

structure Cursor where
  source : List Char
  /-- The tokens found and not yet handed out, the latest first. -/
  found : List Located
  /-- The place of the first character of the lexeme. -/
  start : Nat
  /-- The place of the next character. -/
  current : Nat
  deriving DecidableEq

namespace Cursor

def ofText (text : String) : Cursor := ⟨text.toList, [], 0, 0⟩

/-- A lexeme begins at the next character. -/
def mark (s : Cursor) : Cursor := { s with start := s.current }

/-- The cursor a number of characters further on. -/
def past (s : Cursor) (count : Nat) : Cursor := { s with current := s.current + count }

/-- Reads the next character, which there has to be. -/
def advance? (s : Cursor) : Option (Char × Cursor) :=
  match s.source[s.current]? with
  | none => none
  | some c => some (c, s.past 1)

/-- The next character, if there is one. -/
def peek? (s : Cursor) : Option Char := s.source[s.current]?

/-- The lexeme as far as it has been read; both places have to be within the text and in
their order. -/
def lexeme? (s : Cursor) : Option (List Char) :=
  if s.start ≤ s.current ∧ s.current ≤ s.source.length then
    some ((s.source.take s.current).drop s.start)
  else none

def addToken (s : Cursor) (token : Token) : Cursor :=
  { s with found := ⟨s.start, token⟩ :: s.found }

theorem advance?_eq_some {s next : Cursor} {c : Char} (h : s.advance? = some (c, next)) :
    s.source[s.current]? = some c ∧ next = s.past 1 := by
  unfold advance? at h
  split at h <;> cases h
  exact ⟨‹_›, rfl⟩

/-- Reads on as long as the next character is of a class. -/
def skip? (p : Char → Bool) (s : Cursor) : Option Cursor :=
  if s.peek?.any p then
    match _ : s.advance? with
    | none => none
    | some (_, next) => next.skip? p
  else some s
termination_by s.source.length - s.current
decreasing_by
  obtain ⟨hchar, rfl⟩ := advance?_eq_some ‹_›
  have hlt := (List.getElem?_eq_some_iff.1 hchar).1
  show s.source.length - (s.current + 1) < s.source.length - s.current
  omega

theorem skip?_of_any {p : Char → Bool} {s next : Cursor} {c : Char} (hpeek : s.peek?.any p)
    (hadvance : s.advance? = some (c, next)) : s.skip? p = next.skip? p := by
  rw [skip?, if_pos hpeek]
  split <;> simp_all

theorem skip?_of_not_any {p : Char → Bool} {s : Cursor} (hpeek : ¬ s.peek?.any p) :
    s.skip? p = some s := by
  rw [skip?, if_neg hpeek]

def scanOperator (s : Cursor) (op : Operator) : Option ScanError × Cursor :=
  if s.peek? = some ' ' then
    (none, (s.past 1).addToken (.atom (.operator op)))
  else (some ⟨.unterminated op, s.start⟩, s)

def scanInteger? (s : Cursor) : Option (Option ScanError × Cursor) := do
  let s ← s.skip? Char.isDigit
  let run ← s.lexeme?
  match Text.word? run with
  | some value => some (none, s.addToken (.atom (.integer value)))
  | none => some (some ⟨.outOfRange (String.ofList run), s.start⟩, s)

def scanSymbol? (s : Cursor) : Option (Option ScanError × Cursor) := do
  let s ← s.skip? Char.isAlpha
  let run ← s.lexeme?
  some (none, s.addToken (.atom (.symbol (String.ofList run))))

/-- Reads the lexeme at the next character, keeps its token if it has one, and says what is
wrong with it, if anything. -/
def scanToken? (s : Cursor) : Option (Option ScanError × Cursor) := do
  let (c, s) ← s.advance?
  if c = '(' then some (none, s.addToken .openParen)
  else if c = ')' then some (none, s.addToken .closeParen)
  else if c = ' ' then some (none, s)
  else
    match Operator.ofChar? c with
    | some op => some (s.scanOperator op)
    | none =>
      if c.isDigit then s.scanInteger?
      else if c.isAlpha then s.scanSymbol?
      else some (some ⟨.unrecognized c, s.start⟩, s)

/-! ### Progress -/

/-- Reading goes forward in the same text. -/
structure Reads (s next : Cursor) : Prop where
  source_eq : next.source = s.source
  le_current : s.current ≤ next.current

theorem Reads.of_skip? {p : Char → Bool} {s next : Cursor} (h : s.skip? p = some next) :
    s.Reads next := by
  fun_induction skip? p s with
  | case1 s _ hnone => cases h
  | case2 s _ c middle hmiddle ih =>
      obtain ⟨-, rfl⟩ := advance?_eq_some hmiddle
      obtain ⟨hsource, hle⟩ := ih h
      exact ⟨hsource, Nat.le_of_succ_le hle⟩
  | case3 s _ =>
      cases h
      exact ⟨rfl, Nat.le_refl _⟩

theorem Reads.of_scanOperator (s : Cursor) (op : Operator) : s.Reads (s.scanOperator op).2 := by
  unfold scanOperator
  split
  · exact ⟨rfl, Nat.le_succ _⟩
  · exact ⟨rfl, Nat.le_refl _⟩

theorem Reads.of_scanInteger? {s next : Cursor} {error? : Option ScanError}
    (h : s.scanInteger? = some (error?, next)) : s.Reads next := by
  simp only [scanInteger?, Option.bind_eq_bind, Option.bind_eq_some_iff] at h
  obtain ⟨middle, hskip, run, -, h⟩ := h
  obtain ⟨hsource, hle⟩ := of_skip? hskip
  split at h <;> cases h <;> exact ⟨hsource, hle⟩

theorem Reads.of_scanSymbol? {s next : Cursor} {error? : Option ScanError}
    (h : s.scanSymbol? = some (error?, next)) : s.Reads next := by
  simp only [scanSymbol?, Option.bind_eq_bind, Option.bind_eq_some_iff] at h
  obtain ⟨middle, hskip, run, -, h⟩ := h
  obtain ⟨hsource, hle⟩ := of_skip? hskip
  cases h
  exact ⟨hsource, hle⟩

/-- Whatever the lexeme is, its first character is read. -/
theorem current_lt_of_scanToken? {s next : Cursor} {error? : Option ScanError}
    (h : s.scanToken? = some (error?, next)) :
    next.source = s.source ∧ s.current < next.current := by
  simp only [scanToken?, Option.bind_eq_bind, Option.bind_eq_some_iff] at h
  obtain ⟨⟨c, behind⟩, hadvance, h⟩ := h
  obtain ⟨-, rfl⟩ := advance?_eq_some hadvance
  suffices hreads : (s.past 1).Reads next from
    ⟨hreads.source_eq, hreads.le_current⟩
  split at h
  · cases h
    exact ⟨rfl, Nat.le_refl _⟩
  split at h
  · cases h
    exact ⟨rfl, Nat.le_refl _⟩
  split at h
  · cases h
    exact ⟨rfl, Nat.le_refl _⟩
  split at h
  · obtain ⟨-, rfl⟩ := Prod.mk.inj (Option.some.inj h)
    exact .of_scanOperator _ _
  split at h
  · exact .of_scanInteger? h
  split at h
  · exact .of_scanSymbol? h
  · cases h
    exact ⟨rfl, Nat.le_refl _⟩

/-! ### Scans -/

/-- The tokens found so far, in the order of the text. -/
def tokens (s : Cursor) : List Token := s.found.reverse.map Located.token

/-- Reads lexemes to the end of the text and hands out the tokens, or stops behind the first
lexeme that is faulty. -/
def scan? (s : Cursor) : Option (Except ScanError (List Token) × Cursor) :=
  if s.source.length ≤ s.current then some (.ok s.tokens, { s with found := [] })
  else
    match _ : s.mark.scanToken? with
    | none => none
    | some (none, next) => next.scan?
    | some (some error, next) => some (.error error, next)
termination_by s.source.length - s.current
decreasing_by
  obtain ⟨hsource, hlt⟩ := current_lt_of_scanToken? ‹_›
  rw [hsource]
  show s.source.length - next.current < s.source.length - s.current
  have hmark : s.current < next.current := hlt
  omega

theorem scan?_of_length_le {s : Cursor} (h : s.source.length ≤ s.current) :
    s.scan? = some (.ok s.tokens, { s with found := [] }) := by
  rw [scan?, if_pos h]

theorem scan?_of_scanToken?_ok {s next : Cursor} (h : s.current < s.source.length)
    (htoken : s.mark.scanToken? = some (none, next)) : s.scan? = next.scan? := by
  rw [scan?, if_neg (Nat.not_le.2 h)]
  split <;> simp_all

theorem scan?_of_scanToken?_error {s next : Cursor} {error : ScanError}
    (h : s.current < s.source.length)
    (htoken : s.mark.scanToken? = some (some error, next)) :
    s.scan? = some (.error error, next) := by
  rw [scan?, if_neg (Nat.not_le.2 h)]
  split <;> simp_all

/-- The results of `n` scans, one after the other, and the cursor behind them. -/
def scans? : Nat → Cursor → Option (List (Except ScanError (List Token)) × Cursor)
  | 0, s => some ([], s)
  | n + 1, s => do
    let (result, s) ← s.scan?
    let (results, s) ← scans? n s
    some (result :: results, s)

end Cursor

end SExpr
