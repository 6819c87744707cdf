import Mathlib.Control.Monad.Basic
import SExpr.Cursor
import SExpr.Proofs.Scanning

/-!
A cursor never leaves its text. Where a character is left, the rest of the text begins with a
lexeme, and scanning a token reads this lexeme and nothing else (`scanToken?_of_fits`); so no
place outside the text is met, the cursor goes forward, and it does what the scanner does
that has consumed as much. `Scans` lists the tokens that one scan begins, which carries the
bounds from a token to a scan, and `exists_scans?` carries them to any number of scans.
-/

namespace SExpr

namespace Cursor

/-- The scanner that has consumed what a cursor has read. -/
def toScanner (s : Cursor) : Scanner := ⟨s.source.drop s.current, s.current, s.found⟩

/-- The places of a cursor are in their order and within its text. -/
structure InBounds (s : Cursor) : Prop where
  start_le : s.start ≤ s.current
  current_le : s.current ≤ s.source.length

variable {s next : Cursor} {c : Char} {rest : List Char}

/-! ### Reading characters -/

theorem past_past (s : Cursor) (m n : Nat) : (s.past m).past n = s.past (m + n) := by
  rw [past, past, past, Nat.add_assoc]

theorem peek?_of_drop (h : s.source.drop s.current = rest) : s.peek? = rest.head? := by
  rw [peek?, ← h, List.head?_drop]

theorem advance?_of_drop (h : s.source.drop s.current = c :: rest) :
    s.advance? = some (c, s.past 1) ∧ s.source.drop (s.current + 1) = rest := by
  have hchar : s.source[s.current]? = some c := by
    rw [← List.head?_drop, h, List.head?_cons]
  constructor
  · rw [advance?, hchar]
  · rw [← List.tail_drop, h, List.tail_cons]

/-- Of what is left of the text, the run of a class at its front is read. -/
theorem skip?_of_drop (p : Char → Bool) (h : s.source.drop s.current = rest) :
    s.skip? p = some (s.past (rest.takeWhile p).length) := by
  induction rest generalizing s with
  | nil =>
      apply skip?_of_not_any
      simp [peek?_of_drop h]
  | cons c rest ih =>
      obtain ⟨hadvance, hrest⟩ := advance?_of_drop h
      have hpeek : s.peek? = some c := peek?_of_drop h
      by_cases hc : p c
      · have hbehind : (s.past 1).skip? p = some ((s.past 1).past (rest.takeWhile p).length) :=
          ih hrest
        rw [skip?_of_any (by simpa [hpeek] using hc) hadvance, hbehind, past_past,
          List.takeWhile_cons_of_pos hc, List.length_cons, Nat.add_comm]
      · rw [skip?_of_not_any (by simpa [hpeek] using hc), List.takeWhile_cons_of_neg hc]
        rfl

/-- What has been read since a lexeme began is the lexeme. -/
theorem lexeme?_mark_past {run : List Char} (hrun : run ≠ [])
    (h : s.source.drop s.current = run ++ rest) :
    (s.mark.past run.length).lexeme? = some run := by
  have hlength : s.source.length - s.current = run.length + rest.length := by
    rw [← List.length_drop, h, List.length_append]
  have hpos : 0 < run.length := List.length_pos_iff.2 hrun
  have hbounds : s.current ≤ s.current + run.length ∧
      s.current + run.length ≤ s.source.length := by
    omega
  have hcut : (s.source.take (s.current + run.length)).drop s.current = run := by
    rw [List.drop_take, h, Nat.add_sub_cancel_left, List.take_left]
  show (if s.current ≤ s.current + run.length ∧ s.current + run.length ≤ s.source.length then
    some ((s.source.take (s.current + run.length)).drop s.current) else none) = some run
  rw [if_pos hbounds, hcut]

/-! ### Reading a lexeme -/

/-- A cursor behind a lexeme, whose token it keeps. -/
def behind (s : Cursor) (lexeme : Lexeme) : Cursor :=
  { source := s.source
    found := (Placed.mk s.current lexeme).located?.toList ++ s.found
    start := s.current
    current := s.current + lexeme.chars.length }

section

variable {lexeme : Lexeme} {left : List Char}

/-- Behind its first character, a run is read to its end and cut out of the text. -/
theorem skip?_mark {p : Char → Bool} {run : List Char} (hrun : ∀ d ∈ run, p d)
    (hleft : ∀ d ∈ left.head?, ¬ p d) (h : s.source.drop s.current = c :: run ++ left) :
    (s.mark.past 1).skip? p = some (s.mark.past (c :: run).length) ∧
      (s.mark.past (c :: run).length).lexeme? = some (c :: run) := by
  have hrest : (s.mark.past 1).source.drop (s.mark.past 1).current = run ++ left :=
    (advance?_of_drop h).2
  constructor
  · rw [skip?_of_drop p hrest, (span_run hrun hleft).1, past_past, Nat.add_comm,
      List.length_cons]
  · exact lexeme?_mark_past (List.cons_ne_nil _ _) h

theorem scanInteger?_mark {run : List Char} (hrun : ∀ d ∈ run, d.isDigit)
    (hleft : ∀ d ∈ left.head?, ¬ d.isDigit) (h : s.source.drop s.current = c :: run ++ left) :
    (s.mark.past 1).scanInteger? =
      some ((Placed.mk s.current (.digits (c :: run))).error?, s.behind (.digits (c :: run))) := by
  obtain ⟨hskip, hlexeme⟩ := skip?_mark hrun hleft h
  simp only [scanInteger?, hskip, hlexeme, Option.bind_eq_bind, Option.bind_some, behind,
    Placed.error?, Placed.located?, Lexeme.fault?, Lexeme.kept?, Lexeme.token?]
  cases Text.word? (c :: run) <;> rfl

theorem scanSymbol?_mark {run : List Char} (hrun : ∀ d ∈ run, d.isAlpha)
    (hleft : ∀ d ∈ left.head?, ¬ d.isAlpha) (h : s.source.drop s.current = c :: run ++ left) :
    (s.mark.past 1).scanSymbol? =
      some (none, s.behind (.letters (c :: run))) := by
  obtain ⟨hskip, hlexeme⟩ := skip?_mark hrun hleft h
  simp only [scanSymbol?, hskip, hlexeme, Option.bind_eq_bind, Option.bind_some]
  rfl

theorem scanOperator_mark (op : Operator) (h : s.source.drop s.current = c :: rest) :
    (s.mark.past 1).scanOperator op =
      if rest.head? = some ' ' then (none, s.behind (.operator op))
      else (some ⟨.unterminated op, s.current⟩, s.behind (.bareOperator op)) := by
  have hpeek : (s.mark.past 1).peek? = rest.head? := peek?_of_drop (advance?_of_drop h).2
  rw [scanOperator, hpeek]
  split <;> rfl

/-- Scanning a token meets no place outside the text, and reads the lexeme that the rest of
the text begins with. -/
theorem scanToken?_of_fits (hfits : lexeme.Fits left)
    (h : s.source.drop s.current = lexeme.chars ++ left) :
    s.mark.scanToken? = some ((Placed.mk s.current lexeme).error?, s.behind lexeme) := by
  obtain ⟨c, tail, hchars⟩ := List.exists_cons_of_ne_nil hfits.chars_ne_nil
  have hadvance : s.mark.advance? = some (c, s.mark.past 1) :=
    (advance?_of_drop (s := s.mark) (hchars ▸ h)).1
  simp only [scanToken?, hadvance, Option.bind_eq_bind, Option.bind_some]
  cases lexeme with
  | blank =>
      cases hchars
      rfl
  | openParen =>
      cases hchars
      rfl
  | closeParen =>
      cases hchars
      rfl
  | letters run =>
      obtain rfl : run = c :: tail := hchars
      obtain ⟨-, hrun, hleft⟩ := hfits
      obtain ⟨halpha, htail⟩ := List.forall_mem_cons.1 hrun
      have hdigit : ¬ c.isDigit := fun hdigit => not_isAlpha_of_isDigit hdigit halpha
      have hop := Operator.ofChar?_eq_none_of_class (.inr (.inr (.inr (.inr halpha))))
      simp [not_delimiter_of_class (.inr halpha), hop, hdigit, halpha,
        scanSymbol?_mark htail hleft h]
      rfl
  | digits run =>
      obtain rfl : run = c :: tail := hchars
      obtain ⟨-, hrun, hleft⟩ := hfits
      obtain ⟨hdigit, htail⟩ := List.forall_mem_cons.1 hrun
      have hop := Operator.ofChar?_eq_none_of_class (.inr (.inr (.inr (.inl hdigit))))
      simp [not_delimiter_of_class (.inl hdigit), hop, hdigit,
        scanInteger?_mark htail hleft h]
  | operator op =>
      cases hchars
      simp [op.toChar_class, scanOperator_mark op h]
      rfl
  | bareOperator op =>
      cases hchars
      have hspace : left.head? ≠ some ' ' := hfits
      simp [op.toChar_class, scanOperator_mark op h, hspace]
      rfl
  | foreign c =>
      cases hchars
      simp only [Lexeme.Fits, InAlphabet, not_or, not_exists] at hfits
      simp [hfits, Operator.ofChar?_eq_none_iff.2 hfits.2.2.2.1]
      exact ⟨rfl, rfl⟩

theorem step_toScanner (hfits : lexeme.Fits left)
    (h : s.source.drop s.current = lexeme.chars ++ left) :
    s.toScanner.step =
      some ((Placed.mk s.current lexeme).error?, (s.behind lexeme).toScanner) := by
  obtain ⟨c, tail, hchars⟩ := List.exists_cons_of_ne_nil hfits.chars_ne_nil
  have hleft : s.source.drop (s.current + lexeme.chars.length) = left := by
    rw [← List.drop_drop, h, List.drop_left]
  have hsplit : Lexeme.split c (tail ++ left) = (lexeme, left) := Lexeme.split_of_fits hfits hchars
  rw [toScanner, toScanner, behind, hleft, h, hchars, List.cons_append, Scanner.step, hsplit]
  rcases htoken : lexeme.token? with fault | _ | token
  all_goals
    simp [Placed.error?, Placed.located?, Lexeme.fault?, Lexeme.kept?, htoken, hchars]

end

/-- Where a character is left, the rest of the text begins with a lexeme. -/
theorem exists_fits (hmore : s.current < s.source.length) :
    ∃ (lexeme : Lexeme) (left : List Char), lexeme.Fits left ∧
      s.source.drop s.current = lexeme.chars ++ left := by
  refine ⟨_, _, Lexeme.fits_split s.source[s.current] (s.source.drop (s.current + 1)), ?_⟩
  rw [Lexeme.split_chars, List.drop_eq_getElem_cons hmore]

theorem exists_scanToken? (hmore : s.current < s.source.length) :
    ∃ error? next, s.mark.scanToken? = some (error?, next) := by
  obtain ⟨lexeme, left, hfits, hdrop⟩ := exists_fits hmore
  exact ⟨_, _, scanToken?_of_fits hfits hdrop⟩

section

variable {error? : Option ScanError} (hmore : s.current < s.source.length)
  (htoken : s.mark.scanToken? = some (error?, next))

include hmore htoken

/-- A token is scanned as by the scanner that has consumed as much. -/
theorem step_of_scanToken? : s.toScanner.step = some (error?, next.toScanner) := by
  obtain ⟨lexeme, left, hfits, hdrop⟩ := exists_fits hmore
  cases htoken.symm.trans (scanToken?_of_fits hfits hdrop)
  exact step_toScanner hfits hdrop

/-- Scanning a token goes forward and not past the end of the text. -/
theorem bounds_of_scanToken? :
    next.source = s.source ∧ next.start = s.current ∧ s.current < next.current ∧
      next.current ≤ s.source.length := by
  obtain ⟨lexeme, left, hfits, hdrop⟩ := exists_fits hmore
  cases htoken.symm.trans (scanToken?_of_fits hfits hdrop)
  have hpos := hfits.length_pos
  have hlength := congrArg List.length hdrop
  rw [List.length_drop, List.length_append] at hlength
  refine ⟨rfl, rfl, ?_, ?_⟩
  · show s.current < s.current + lexeme.chars.length
    omega
  · show s.current + lexeme.chars.length ≤ s.source.length
    omega

theorem inBounds_of_scanToken? : next.InBounds := by
  obtain ⟨hsource, hstart, hlt, hle⟩ := bounds_of_scanToken? hmore htoken
  constructor
  · omega
  · rwa [hsource]

end

/-! ### Scans -/

/-- A scan, token by token: `begun` are the cursors from which it scans one, each of them
where the one before stopped, until no character is left or a lexeme is faulty. -/
inductive Scans : Cursor → List Cursor → Except ScanError (List Token) → Cursor → Prop where
  | atEnd {s : Cursor} (hend : s.source.length ≤ s.current) :
      Scans s [] (.ok s.tokens) { s with found := [] }
  | error {s next : Cursor} {error : ScanError} (hmore : s.current < s.source.length)
      (htoken : s.mark.scanToken? = some (some error, next)) :
      Scans s [s.mark] (.error error) next
  | token {s middle next : Cursor} {begun : List Cursor}
      {result : Except ScanError (List Token)} (hmore : s.current < s.source.length)
      (htoken : s.mark.scanToken? = some (none, middle)) (hrest : Scans middle begun result next) :
      Scans s (s.mark :: begun) result next

/-- Every scan comes to an end, since each token takes it nearer to the end of the text. -/
theorem exists_scans (s : Cursor) : ∃ begun result next, Scans s begun result next := by
  induction hleft : s.source.length - s.current using Nat.strongRecOn generalizing s with
  | ind left ih =>
      by_cases hmore : s.current < s.source.length
      · obtain ⟨error?, middle, htoken⟩ := exists_scanToken? hmore
        cases error? with
        | some error => exact ⟨_, _, _, .error hmore htoken⟩
        | none =>
            obtain ⟨hsource, -, hlt, -⟩ := bounds_of_scanToken? hmore htoken
            have hless : middle.source.length - middle.current < left := by
              rw [hsource]
              omega
            obtain ⟨begun, result, next, hrest⟩ := ih _ hless middle rfl
            exact ⟨_, _, _, .token hmore htoken hrest⟩
      · exact ⟨_, _, _, .atEnd (Nat.le_of_not_lt hmore)⟩

namespace Scans

variable {begun : List Cursor} {result : Except ScanError (List Token)}

theorem scan?_eq (h : Scans s begun result next) : s.scan? = some (result, next) := by
  induction h with
  | atEnd hend => exact scan?_of_length_le hend
  | error hmore htoken => exact scan?_of_scanToken?_error hmore htoken
  | token hmore htoken _ ih => rw [scan?_of_scanToken?_ok hmore htoken, ih]

/-- A cursor scans as the scanner that has consumed as much. -/
theorem scan_toScanner (h : Scans s begun result next) :
    s.toScanner.scan = (result, next.toScanner) := by
  induction h with
  | @atEnd s hend =>
      have hstep : s.toScanner.step = none :=
        Scanner.step_eq_none_iff.2 (List.drop_eq_nil_of_le hend)
      rw [Scanner.scan, Scanner.run_of_step_none hstep]
      rfl
  | error hmore htoken =>
      rw [Scanner.scan, Scanner.run_of_step_error (step_of_scanToken? hmore htoken)]
  | token hmore htoken _ ih =>
      rw [← ih, Scanner.scan, Scanner.run_of_step_ok (step_of_scanToken? hmore htoken),
        Scanner.scan]

/-- A scan keeps to the text, and scans no more tokens than it reads characters. -/
theorem inBounds (h : Scans s begun result next) (hs : s.InBounds) :
    next.source = s.source ∧ next.InBounds ∧ s.current + begun.length ≤ next.current := by
  induction h with
  | atEnd hend => exact ⟨rfl, ⟨hs.start_le, hs.current_le⟩, Nat.le_refl _⟩
  | error hmore htoken =>
      obtain ⟨hsource, -, hlt, -⟩ := bounds_of_scanToken? hmore htoken
      exact ⟨hsource, inBounds_of_scanToken? hmore htoken, hlt⟩
  | token hmore htoken _ ih =>
      obtain ⟨hsource, -, hlt, -⟩ := bounds_of_scanToken? hmore htoken
      obtain ⟨hsource', hbounds, hlength⟩ := ih (inBounds_of_scanToken? hmore htoken)
      refine ⟨hsource'.trans hsource, hbounds, ?_⟩
      rw [List.length_cons]
      omega

theorem current_lt (h : Scans s begun result next) (hs : s.InBounds)
    (hmore : s.current < s.source.length) : s.current < next.current := by
  have hlength := (h.inBounds hs).2.2
  cases h with
  | atEnd hend => omega
  | error _ _ =>
      rw [List.length_singleton] at hlength
      omega
  | token _ _ _ =>
      rw [List.length_cons] at hlength
      omega

/-- Every token that a scan begins, it begins at a character of the text. -/
theorem scanToken?_of_mem {t : Cursor} (h : Scans s begun result next) (ht : t ∈ begun) :
    t.start = t.current ∧ t.current < s.source.length ∧
      ∃ error? after, t.scanToken? = some (error?, after) ∧ after.source = s.source ∧
        after.InBounds ∧ t.current < after.current := by
  induction h with
  | atEnd hend => cases ht
  | error hmore htoken =>
      obtain rfl := List.mem_singleton.1 ht
      obtain ⟨hsource, -, hlt, -⟩ := bounds_of_scanToken? hmore htoken
      exact ⟨rfl, hmore, _, _, htoken, hsource, inBounds_of_scanToken? hmore htoken, hlt⟩
  | token hmore htoken _ ih =>
      obtain ⟨hsource, -, hlt, -⟩ := bounds_of_scanToken? hmore htoken
      rcases List.mem_cons.1 ht with rfl | ht
      · exact ⟨rfl, hmore, _, _, htoken, hsource, inBounds_of_scanToken? hmore htoken, hlt⟩
      · rw [← hsource]
        exact ih ht

/-- At the end of the text nothing can be wrong. -/
theorem exists_ok_of_length_le (h : Scans s begun result next)
    (hend : s.source.length ≤ s.current) : ∃ tokens, result = .ok tokens := by
  cases h with
  | atEnd _ => exact ⟨_, rfl⟩
  | error hmore _ => omega
  | token hmore _ _ => omega

end Scans

/-- After a number of scans a cursor is at the end of its text, or has gone forward with
each of them. -/
theorem exists_scans? (calls : Nat) {s : Cursor} (hs : s.InBounds) :
    ∃ results next, s.scans? calls = some (results, next) ∧
      results = s.toScanner.scans calls ∧ next.source = s.source ∧ next.InBounds ∧
        (next.current < s.source.length → s.current + calls ≤ next.current) := by
  induction calls generalizing s with
  | zero => exact ⟨[], s, rfl, rfl, rfl, hs, fun _ => Nat.le_refl _⟩
  | succ calls ih =>
      obtain ⟨begun, result, middle, hscans⟩ := exists_scans s
      obtain ⟨hsource, hmiddle, hlength⟩ := hscans.inBounds hs
      obtain ⟨results, next, hnext, hresults, hsource', hbounds, hfar⟩ := ih hmiddle
      refine ⟨result :: results, next, ?_, ?_, hsource'.trans hsource, hbounds, ?_⟩
      · simp [scans?, hscans.scan?_eq, hnext]
      · rw [Scanner.scans, hscans.scan_toScanner, hresults]
      · intro hmore
        have hfurther := hfar (hsource ▸ hmore)
        have hforward : s.current < middle.current := hscans.current_lt hs (by omega)
        omega

/-- Whatever the text and however often it has been scanned, with whatever results, a cursor
is within the text. The next scan comes to an end there. Each token that it begins it begins
at a character of the text, reads without leaving the text, and ends further on; so the scan
goes forward unless the text is at its end, and after as many scans as the text has
characters it does not fail. -/
theorem scans_advance_in_bounds (text : String) (calls : Nat) :
    ∃ results s, (ofText text).scans? calls = some (results, s) ∧
      results = (Scanner.ofText text).scans calls ∧
      s.source = text.toList ∧ s.start ≤ s.current ∧ s.current ≤ text.length ∧
      ∃ begun result next, s.scan? = some (result, next) ∧ Scans s begun result next ∧
        s.current + begun.length ≤ next.current ∧
        (s.current < text.length → s.current < next.current) ∧
        (text.length ≤ calls → ∃ tokens, result = .ok tokens) ∧
        ∀ t ∈ begun, t.start = t.current ∧ t.current < text.length ∧
          ∃ error? after, t.scanToken? = some (error?, after) ∧ after.source = text.toList ∧
            t.current < after.current ∧ after.start ≤ after.current ∧
            after.current ≤ text.length := by
  have hstart : (ofText text).InBounds := ⟨Nat.le_refl _, Nat.zero_le _⟩
  obtain ⟨results, s, hcalls, hresults, hsource, hs, hfar⟩ := exists_scans? calls hstart
  change s.source = text.toList at hsource
  have hlength : s.source.length = text.length := by
    rw [hsource, String.length_toList]
  have hfar : s.current < text.length → 0 + calls ≤ s.current := by
    rwa [← String.length_toList]
  obtain ⟨begun, result, next, hscans⟩ := exists_scans s
  refine ⟨results, s, hcalls, hresults, hsource, hs.start_le, hlength ▸ hs.current_le,
    begun, result, next, hscans.scan?_eq, hscans, (hscans.inBounds hs).2.2, ?_, ?_, ?_⟩
  · intro hmore
    exact hscans.current_lt hs (hlength ▸ hmore)
  · intro hcalls
    apply hscans.exists_ok_of_length_le
    omega
  · intro t ht
    obtain ⟨hmark, hmore, error?, after, htoken, hafter, hbounds, hlt⟩ :=
      hscans.scanToken?_of_mem ht
    have hend := hbounds.current_le
    rw [hafter, hlength] at hend
    exact ⟨hmark, hlength ▸ hmore, error?, after, htoken, hafter.trans hsource, hlt,
      hbounds.start_le, hend⟩

/-- Behind the first fault of this text the next scan still goes forward, and behind the
second one a scan succeeds. -/
theorem scans_advance_in_bounds_faulty :
    (∃ s result next,
        (ofText "+.").scans? 1 = some ([.error ⟨.unterminated .plus, 0⟩], s) ∧
          s.current < "+.".length ∧ s.scan? = some (result, next) ∧ s.current < next.current) ∧
      ∃ results s tokens next, (ofText "+.").scans? 2 = some (results, s) ∧
        s.scan? = some (.ok tokens, next) := by
  have hfirst : (ofText "+.").scans? 1 =
      some ([.error ⟨.unterminated .plus, 0⟩], ⟨['+', '.'], [], 0, 1⟩) := by
    decide +kernel
  constructor
  · obtain ⟨results, s, hcalls, -, -, -, -, -, result, next, hscan, -, -, hforward, -⟩ :=
      scans_advance_in_bounds "+." 1
    cases hcalls.symm.trans hfirst
    have hmore : 1 < "+.".length := by decide
    exact ⟨_, result, next, hfirst, hmore, hscan, hforward hmore⟩
  · obtain ⟨results, s, hcalls, -, -, -, -, -, result, next, hscan, -, -, -, hok, -⟩ :=
      scans_advance_in_bounds "+." 2
    obtain ⟨tokens, rfl⟩ := hok (Nat.le_of_eq (by decide))
    exact ⟨results, s, tokens, next, hcalls, hscan⟩

end Cursor

end SExpr
