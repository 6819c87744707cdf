import SExpr.Proofs.Segmentation
import SExpr.Scanner

/-!
A scan as a walk over lexemes. What a scanner still has to report is read off
the lexemes ahead of it: the errors in their order, and the tokens it holds
already together with those to come. A step moves one lexeme from the second
side to the first and keeps the sum, so a scan reports the first error ahead or,
if there is none, hands out all tokens.
-/

namespace SExpr

namespace Lexeme

/-- What is wrong with a lexeme, if anything is. -/
def fault? (lexeme : Lexeme) : Option ScanFault :=
  match lexeme.token? with
  | .ok _ => none
  | .error fault => some fault

/-- The token that a scan keeps of a lexeme. -/
def kept? (lexeme : Lexeme) : Option Token :=
  match lexeme.token? with
  | .ok token => token
  | .error _ => none

/-- Of a faulty lexeme nothing is kept. -/
theorem kept?_eq_none_of_fault {lexeme : Lexeme} {fault : ScanFault}
    (h : lexeme.fault? = some fault) : lexeme.kept? = none := by
  unfold fault? at h
  unfold kept?
  split at h
  · simp at h
  · simp [*]

/-- The lexemes of which a scan keeps a token. -/
inductive Keeps : Lexeme → Token → Prop where
  | openParen : Keeps openParen .openParen
  | closeParen : Keeps closeParen .closeParen
  | letters (run : List Char) : Keeps (letters run) (.atom (.symbol (String.ofList run)))
  | digits {run : List Char} {value : UInt64} (h : Text.word? run = some value) :
      Keeps (digits run) (.atom (.integer value))
  | operator (op : Operator) : Keeps (operator op) (.atom (.operator op))

theorem keeps_of_kept? {lexeme : Lexeme} {token : Token} (h : lexeme.kept? = some token) :
    lexeme.Keeps token := by
  cases lexeme with
  | openParen =>
      cases h
      exact .openParen
  | closeParen =>
      cases h
      exact .closeParen
  | letters run =>
      cases h
      exact .letters run
  | digits run =>
      cases hword : Text.word? run with
      | none => simp [kept?, token?, hword] at h
      | some value =>
          obtain rfl : Token.atom (.integer value) = token := by
            simpa [kept?, token?, hword] using h
          exact .digits hword
  | operator op =>
      cases h
      exact .operator op
  | blank => cases h
  | bareOperator op => cases h
  | foreign c => cases h

theorem Keeps.kept? {lexeme : Lexeme} {token : Token} (h : lexeme.Keeps token) :
    lexeme.kept? = some token := by
  cases h with
  | digits hword => simp [Lexeme.kept?, token?, hword]
  | _ => rfl

/-- A lexeme with no fault is a space, or a scan keeps a token of it. -/
theorem eq_blank_or_keeps {lexeme : Lexeme} (h : lexeme.fault? = none) :
    lexeme = blank ∨ ∃ token, lexeme.Keeps token := by
  cases lexeme with
  | blank => exact .inl rfl
  | digits run =>
      cases hword : Text.word? run with
      | none => simp [fault?, token?, hword] at h
      | some value => exact .inr ⟨_, .digits hword⟩
  | bareOperator op => cases h
  | foreign c => cases h
  | _ => exact .inr ⟨_, keeps_of_kept? rfl⟩

end Lexeme

/-- A lexeme and the place of its first character in a text. -/
structure Placed where
  offset : Nat
  lexeme : Lexeme
  deriving DecidableEq

namespace Placed

def error? (p : Placed) : Option ScanError := p.lexeme.fault?.map (⟨·, p.offset⟩)

def located? (p : Placed) : Option Located := p.lexeme.kept?.map (⟨p.offset, ·⟩)

theorem error?_eq_some_iff {p : Placed} {error : ScanError} :
    p.error? = some error ↔ p.lexeme.fault? = some error.fault ∧ error.offset = p.offset := by
  rw [error?, Option.map_eq_some_iff]
  constructor
  · rintro ⟨fault, hfault, rfl⟩
    exact ⟨hfault, rfl⟩
  · rintro ⟨hfault, hoffset⟩
    exact ⟨error.fault, hfault, by rw [← hoffset]⟩

theorem located?_eq_some_iff {p : Placed} {found : Located} :
    p.located? = some found ↔ p.lexeme.kept? = some found.token ∧ found.offset = p.offset := by
  rw [located?, Option.map_eq_some_iff]
  constructor
  · rintro ⟨token, hkept, rfl⟩
    exact ⟨hkept, rfl⟩
  · rintro ⟨hkept, hoffset⟩
    exact ⟨found.token, hkept, by rw [← hoffset]⟩

/-- A row of lexemes in their places, the first of them at `offset`. -/
def row : Nat → List Lexeme → List Placed
  | _, [] => []
  | offset, lexeme :: lexemes =>
      ⟨offset, lexeme⟩ :: row (offset + lexeme.chars.length) lexemes

theorem map_lexeme_row (offset : Nat) (lexemes : List Lexeme) :
    (row offset lexemes).map lexeme = lexemes := by
  induction lexemes generalizing offset with
  | nil => rfl
  | cons lexeme lexemes ih => simp [row, ih]

theorem row_append (offset : Nat) (as bs : List Lexeme) :
    row offset (as ++ bs) =
      row offset as ++ row (offset + (as.flatMap Lexeme.chars).length) bs := by
  induction as generalizing offset with
  | nil => rfl
  | cons lexeme as ih =>
      rw [List.cons_append, row, row, ih, List.flatMap_cons, List.length_append, Nat.add_assoc]
      rfl

/-- Where a row is split at a lexeme the lexemes are, and the place of that one is the
length of what is before it. -/
theorem exists_lexemes_of_row_eq {offset : Nat} {lexemes : List Lexeme}
    {front behind : List Placed} {p : Placed} (h : row offset lexemes = front ++ p :: behind) :
    ∃ earlier later, lexemes = earlier ++ p.lexeme :: later ∧ front = row offset earlier ∧
      p.offset = offset + (earlier.flatMap Lexeme.chars).length := by
  induction front generalizing offset lexemes with
  | nil =>
      cases lexemes with
      | nil => cases h
      | cons lexeme lexemes =>
          cases h
          exact ⟨[], lexemes, rfl, rfl, rfl⟩
  | cons q front ih =>
      cases lexemes with
      | nil => cases h
      | cons lexeme lexemes =>
          rw [row, List.cons_append, List.cons.injEq] at h
          obtain ⟨rfl, h⟩ := h
          obtain ⟨earlier, later, rfl, rfl, hoffset⟩ := ih h
          refine ⟨lexeme :: earlier, later, rfl, rfl, ?_⟩
          rw [hoffset, List.flatMap_cons, List.length_append, Nat.add_assoc]

theorem le_offset_of_mem_row {p : Placed} {offset : Nat} {lexemes : List Lexeme}
    (h : p ∈ row offset lexemes) : offset ≤ p.offset := by
  induction lexemes generalizing offset with
  | nil => simp [row] at h
  | cons lexeme lexemes ih =>
      rw [row, List.mem_cons] at h
      rcases h with rfl | h
      · exact Nat.le_refl offset
      · exact Nat.le_trans (Nat.le_add_right _ _) (ih h)

theorem le_offset_of_mem_errors {error : ScanError} {offset : Nat} {lexemes : List Lexeme}
    (h : error ∈ (row offset lexemes).filterMap error?) : offset ≤ error.offset := by
  obtain ⟨p, hp, herror⟩ := List.mem_filterMap.1 h
  rw [(error?_eq_some_iff.1 herror).2]
  exact le_offset_of_mem_row hp

theorem errors_row_eq_nil_iff {offset : Nat} {lexemes : List Lexeme} :
    (row offset lexemes).filterMap error? = [] ↔ ∀ lexeme ∈ lexemes, lexeme.fault? = none := by
  calc
    (row offset lexemes).filterMap error? = [] ↔
        ∀ p ∈ row offset lexemes, p.lexeme.fault? = none := by
      simp [error?]
    _ ↔ ∀ other ∈ (row offset lexemes).map lexeme, other.fault? = none := by
      rw [List.forall_mem_map]
    _ ↔ ∀ lexeme ∈ lexemes, lexeme.fault? = none := by rw [map_lexeme_row]

/-- What holds at the places of a text is what its lexemes show, if the first
lexeme shows all that holds within it and changes nothing behind it. -/
theorem exists_mem_row_iff {β : Type} {view : Lexeme → Option β}
    {holds : List Char → Nat → β → Prop} (hnil : ∀ offset b, ¬ holds [] offset b)
    (hfirst : ∀ (lexeme : Lexeme) rest offset b, lexeme.Fits rest →
      offset < lexeme.chars.length →
        (holds (lexeme.chars ++ rest) offset b ↔ offset = 0 ∧ view lexeme = some b))
    (hbehind : ∀ (lexeme : Lexeme) rest offset b, lexeme.Fits rest →
      (holds (lexeme.chars ++ rest) (lexeme.chars.length + offset) b ↔ holds rest offset b))
    (cs : List Char) (start offset : Nat) (b : β) :
    (∃ lexeme, ⟨start + offset, lexeme⟩ ∈ row start (Lexeme.ofChars cs) ∧
      view lexeme = some b) ↔ holds cs offset b := by
  induction cs using Lexeme.induction generalizing start offset with
  | nil => simp [row, hnil]
  | cons lexeme rest hfits ih =>
      rw [Lexeme.ofChars_of_fits hfits, row]
      -- the place is within the first lexeme, or the induction hypothesis is about it
      by_cases hoffset : offset < lexeme.chars.length
      · have hrest (other : Lexeme) : ⟨start + offset, other⟩ ∉
            row (start + lexeme.chars.length) (Lexeme.ofChars rest) := by
          intro hmem
          have hle : start + lexeme.chars.length ≤ start + offset := le_offset_of_mem_row hmem
          omega
        rw [hfirst lexeme rest offset b hfits hoffset]
        simp [hrest, and_assoc]
      · obtain ⟨place, rfl⟩ := Nat.exists_eq_add_of_le (Nat.le_of_not_lt hoffset)
        have hpos := hfits.length_pos
        have hne (other : Lexeme) :
            (⟨start + (lexeme.chars.length + place), other⟩ : Placed) ≠ ⟨start, lexeme⟩ := by
          rw [ne_eq, mk.injEq]
          omega
        rw [hbehind lexeme rest place b hfits, ← ih (start + lexeme.chars.length) place,
          Nat.add_assoc]
        simp [hne]

end Placed

namespace Scanner

/-! ### What a scanner still has to report -/

/-- The lexemes that a scanner has not consumed. -/
def ahead (s : Scanner) : List Placed := Placed.row s.offset (Lexeme.ofChars s.rest)

def errorsAhead (s : Scanner) : List ScanError := s.ahead.filterMap Placed.error?

/-- The tokens that a scanner holds, and those that are ahead of it. -/
def allFound (s : Scanner) : List Located :=
  s.found.reverse ++ s.ahead.filterMap Placed.located?

/-- A step takes the first lexeme ahead; it reports the lexeme's error or keeps
its token, and does nothing else. -/
theorem ahead_of_step {s next : Scanner} {error? : Option ScanError}
    (h : s.step = some (error?, next)) :
    ∃ p : Placed, s.ahead = p :: next.ahead ∧ error? = p.error? ∧
      next.found = p.located?.toList ++ s.found := by
  obtain ⟨_ | ⟨c, rest⟩, offset, found⟩ := s
  · simp [step] at h
  · refine ⟨⟨offset, (Lexeme.split c rest).1⟩, ?_⟩
    -- the lexeme that a step splits off is the first that the text falls into
    have hchars : Lexeme.ofChars (c :: rest) =
        (Lexeme.split c rest).1 :: Lexeme.ofChars (Lexeme.split c rest).2 := by
      rw [Lexeme.ofChars]
    simp only [step] at h
    split at h <;> cases h
    all_goals
      simp [ahead, Placed.row, Placed.error?, Placed.located?, Lexeme.fault?, Lexeme.kept?, *]

theorem errorsAhead_of_step {s next : Scanner} {error? : Option ScanError}
    (h : s.step = some (error?, next)) :
    s.errorsAhead = error?.toList ++ next.errorsAhead := by
  obtain ⟨p, hahead, rfl, -⟩ := ahead_of_step h
  rw [errorsAhead, hahead, List.filterMap_cons]
  cases p.error? <;> rfl

theorem allFound_of_step {s next : Scanner} {error? : Option ScanError}
    (h : s.step = some (error?, next)) : next.allFound = s.allFound := by
  obtain ⟨p, hahead, -, hfound⟩ := ahead_of_step h
  rw [allFound, allFound, hahead, hfound, List.filterMap_cons]
  cases p.located? <;> simp

/-- A run reports the first error ahead, if there is one, and loses no token. -/
theorem outlook_of_run {s next : Scanner} {error? : Option ScanError}
    (h : s.run = (error?, next)) :
    s.errorsAhead = error?.toList ++ next.errorsAhead ∧ next.allFound = s.allFound := by
  fun_induction run s with
  | case1 s hstep =>
      cases h
      exact ⟨rfl, rfl⟩
  | case2 s middle hstep ih =>
      obtain ⟨herrors, hfound⟩ := ih h
      refine ⟨?_, hfound.trans (allFound_of_step hstep)⟩
      rw [errorsAhead_of_step hstep, Option.toList_none, List.nil_append, herrors]
  | case3 s error middle hstep =>
      cases h
      exact ⟨errorsAhead_of_step hstep, allFound_of_step hstep⟩

theorem offset_of_step {s next : Scanner} {error? : Option ScanError}
    (h : s.step = some (error?, next)) :
    next.offset + next.rest.length = s.offset + s.rest.length := by
  obtain ⟨lexeme, -, hrest, hoffset⟩ := exists_lexeme_of_step h
  rw [← hrest, hoffset, List.length_append, Nat.add_assoc]

/-- A run counts every character that it consumes. -/
theorem offset_of_run {s next : Scanner} {error? : Option ScanError}
    (h : s.run = (error?, next)) :
    next.offset + next.rest.length = s.offset + s.rest.length := by
  fun_induction run s with
  | case1 s hstep =>
      cases h
      rfl
  | case2 s middle hstep ih => rw [ih h, offset_of_step hstep]
  | case3 s error middle hstep =>
      cases h
      exact offset_of_step hstep

theorem rest_of_run_ok {s next : Scanner} (h : s.run = (none, next)) : next.rest = [] := by
  fun_induction run s with
  | case1 s hstep =>
      cases h
      exact step_eq_none_iff.1 hstep
  | case2 s middle hstep ih => exact ih h
  | case3 s error middle hstep => simp at h

theorem errorsAhead_of_rest_nil {s : Scanner} (h : s.rest = []) : s.errorsAhead = [] := by
  simp [errorsAhead, ahead, h, Placed.row]

theorem allFound_of_rest_nil {s : Scanner} (h : s.rest = []) : s.allFound = s.found.reverse := by
  simp [allFound, ahead, h, Placed.row]

/-! ### Scans -/

/-- With an error ahead, a scan reports the first one and keeps everything else. -/
theorem scan_of_errorsAhead_cons {s : Scanner} {error : ScanError} {errors : List ScanError}
    (h : s.errorsAhead = error :: errors) :
    s.scan.1 = .error error ∧ s.scan.2.errorsAhead = errors ∧
      s.scan.2.allFound = s.allFound := by
  rcases hrun : s.run with ⟨_ | error', next⟩
  -- a run without an error leaves nothing ahead of it
  · have herrors := (outlook_of_run hrun).1
    rw [errorsAhead_of_rest_nil (rest_of_run_ok hrun), h] at herrors
    cases herrors
  · obtain ⟨herrors, hfound⟩ := outlook_of_run hrun
    rw [h] at herrors
    cases herrors
    simp [scan, hrun, hfound]

/-- With no error ahead, a scan hands out all tokens and is over. -/
theorem scan_of_errorsAhead_nil {s : Scanner} (h : s.errorsAhead = []) :
    s.scan.1 = .ok (s.allFound.map Located.token) ∧ s.scan.2.rest = [] ∧
      s.scan.2.found = [] := by
  rcases hrun : s.run with ⟨_ | error, next⟩
  · have hrest := rest_of_run_ok hrun
    have hfound := (outlook_of_run hrun).2
    rw [allFound_of_rest_nil hrest] at hfound
    simp [scan, hrun, hrest, tokens, hfound]
  · have herrors := (outlook_of_run hrun).1
    rw [h] at herrors
    cases herrors

end Scanner

/-! ### The scan of a text -/

/-- The errors of a text, from its front. -/
def scanErrors (cs : List Char) : List ScanError :=
  (Placed.row 0 (Lexeme.ofChars cs)).filterMap Placed.error?

/-- The tokens of a text with their places, its faulty lexemes left out. -/
def scanFound (cs : List Char) : List Located :=
  (Placed.row 0 (Lexeme.ofChars cs)).filterMap Placed.located?

/-- The tokens of a text, its faulty lexemes left out. -/
def scanTokens (cs : List Char) : List Token :=
  (Lexeme.ofChars cs).filterMap Lexeme.kept?

theorem map_token_scanFound (cs : List Char) :
    (scanFound cs).map Located.token = scanTokens cs := by
  have hlocated (p : Placed) : p.located?.map Located.token = p.lexeme.kept? := by
    simp [Placed.located?, Function.comp_def]
  have hrow := congrArg (List.filterMap Lexeme.kept?) (Placed.map_lexeme_row 0 (Lexeme.ofChars cs))
  rw [List.filterMap_map] at hrow
  simpa [scanFound, List.map_filterMap, hlocated, scanTokens, Function.comp_def] using hrow

theorem scanTokens_of_fits {lexeme : Lexeme} {rest : List Char} (h : lexeme.Fits rest) :
    scanTokens (lexeme.chars ++ rest) = lexeme.kept?.toList ++ scanTokens rest := by
  rw [scanTokens, Lexeme.ofChars_of_fits h, List.filterMap_cons]
  cases lexeme.kept? <;> rfl

theorem scanErrors_eq_nil_iff_fault? {cs : List Char} :
    scanErrors cs = [] ↔ ∀ lexeme ∈ Lexeme.ofChars cs, lexeme.fault? = none :=
  Placed.errors_row_eq_nil_iff

theorem errorsAhead_ofText (text : String) :
    (Scanner.ofText text).errorsAhead = scanErrors text.toList := rfl

theorem allFound_ofText (text : String) :
    (Scanner.ofText text).allFound.map Located.token = scanTokens text.toList :=
  map_token_scanFound text.toList

theorem scan_of_scanErrors_nil {text : String} (h : scanErrors text.toList = []) :
    scan text = .ok (scanTokens text.toList) := by
  rw [← allFound_ofText]
  exact (Scanner.scan_of_errorsAhead_nil (s := Scanner.ofText text) h).1

theorem scan_of_scanErrors_cons {text : String} {error : ScanError} {errors : List ScanError}
    (h : scanErrors text.toList = error :: errors) : scan text = .error error :=
  (Scanner.scan_of_errorsAhead_cons (s := Scanner.ofText text) h).1

theorem scan_eq_error_iff_head? {text : String} {error : ScanError} :
    scan text = .error error ↔ (scanErrors text.toList).head? = some error := by
  cases h : scanErrors text.toList with
  | nil => simp [scan_of_scanErrors_nil h]
  | cons first errors => simp [scan_of_scanErrors_cons h]

theorem scan_eq_ok_iff {text : String} {tokens : List Token} :
    scan text = .ok tokens ↔ scanErrors text.toList = [] ∧ scanTokens text.toList = tokens := by
  cases h : scanErrors text.toList with
  | nil => simp [scan_of_scanErrors_nil h]
  | cons first errors => simp [scan_of_scanErrors_cons h]

/-- A text whose errors and tokens come of those of another is scanned as the other. -/
theorem scan_eq_of_outlook {text other : String} {f : ScanError → ScanError}
    {g : List Token → List Token}
    (herrors : scanErrors text.toList = (scanErrors other.toList).map f)
    (htokens : scanTokens text.toList = g (scanTokens other.toList)) :
    scan text = ((scan other).map g).mapError f := by
  cases h : scanErrors other.toList with
  | nil =>
      rw [h] at herrors
      rw [scan_of_scanErrors_nil herrors, scan_of_scanErrors_nil h, htokens]
      rfl
  | cons error errors =>
      rw [h] at herrors
      rw [scan_of_scanErrors_cons herrors, scan_of_scanErrors_cons h]
      rfl

end SExpr
