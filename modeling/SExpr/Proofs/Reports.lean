import Mathlib.Data.List.TakeWhile
import SExpr.Log
import SExpr.Proofs.Places

/-!
What the log of a read says. A run reports the token of each lexeme that it consumes
without an error, and in the end how it came out. The lexemes before the first faulty
one are the lexemes of the text up to there; so a log names every token of the text
with its place, or every token of the text before the error.
-/

namespace SExpr

theorem Event.ofLocated_eq : Event.ofLocated = fun l => .token l.offset l.token.text := rfl

/-- What is reported at the end of a run. -/
def Event.ofRun : Option ScanError × Scanner → Event
  | (none, s) => .scanned s.offset s.found.length
  | (some error, _) => .scanAborted error.message

namespace Scanner

variable {s next : Scanner}

/-- The tokens that a run is going to find. -/
def findsAhead (s : Scanner) : List Located :=
  (s.ahead.takeWhile (·.error?.isNone)).filterMap Placed.located?

theorem findsAhead_of_step_none (h : s.step = none) : s.findsAhead = [] := by
  have hrest := step_eq_none_iff.1 h
  simp [findsAhead, ahead, hrest, Placed.row]

theorem findsAhead_of_step_ok (h : s.step = some (none, next)) :
    s.findsAhead = s.finds?.toList ++ next.findsAhead := by
  obtain ⟨p, hahead, herror, hfound⟩ := ahead_of_step h
  -- what the step keeps of the first lexeme ahead is what it reports
  have hkept : p.located?.toList = s.finds?.toList :=
    List.append_cancel_right (hfound.symm.trans (found_of_step h))
  rw [findsAhead, hahead, List.takeWhile_cons_of_pos (by simp [← herror]), List.filterMap_cons,
    ← hkept]
  cases p.located? <;> rfl

theorem findsAhead_of_step_error {error : ScanError} (h : s.step = some (some error, next)) :
    s.findsAhead = [] := by
  obtain ⟨p, hahead, herror, -⟩ := ahead_of_step h
  rw [findsAhead, hahead, List.takeWhile_cons_of_neg (by simp [← herror])]
  rfl

/-- A run reports the tokens that it finds, in their order, and then how it came out. -/
theorem runLogged_fst (s : Scanner) (log : List Event) :
    (s.runLogged log).1 =
      .ofRun s.run :: ((s.findsAhead.map Event.ofLocated).reverse ++ log) := by
  fun_induction runLogged s log with
  | case1 s log hstep =>
      rw [findsAhead_of_step_none hstep, run_of_step_none hstep]
      rfl
  | case2 s log next hstep ih =>
      rw [ih, findsAhead_of_step_ok hstep, run_of_step_ok hstep]
      cases s.finds? <;> simp
  | case3 s log error next hstep =>
      rw [findsAhead_of_step_error hstep, run_of_step_error hstep]
      rfl

end Scanner

/-! ### The text before an error -/

/-- The first error of a text is about its first faulty lexeme: the lexemes before that one
have no fault and are those of the text that ends where the error stands. -/
theorem exists_faulty_of_scanErrors {cs : List Char} {error : ScanError}
    {errors : List ScanError} (h : scanErrors cs = error :: errors) :
    ∃ lexeme behind,
      Lexeme.ofChars cs = Lexeme.ofChars (cs.take error.offset) ++ lexeme :: behind ∧
        lexeme.fault? = some error.fault ∧ scanErrors (cs.take error.offset) = [] ∧
          (cs.take error.offset).length = error.offset := by
  obtain ⟨front, p, _, hrow, hnone, herror, -⟩ := List.filterMap_eq_cons_iff.1 h
  obtain ⟨earlier, later, hchars, rfl, hplace⟩ := Placed.exists_lexemes_of_row_eq hrow
  obtain ⟨hfault, hoffset⟩ := Placed.error?_eq_some_iff.1 herror
  rw [Nat.zero_add] at hplace
  rw [hplace] at hoffset
  -- the text before the error is that of the lexemes before the faulty one
  have htake : cs.take error.offset = earlier.flatMap Lexeme.chars := by
    rw [← Lexeme.flatMap_chars_ofChars cs, hchars, hoffset, List.flatMap_append]
    exact List.take_left
  have hlexemes : Lexeme.ofChars (cs.take error.offset) = earlier := by
    rw [htake]
    exact Lexeme.ofChars_flatMap_of_prefix (hchars ▸ List.prefix_append _ _)
  refine ⟨p.lexeme, later, ?_, hfault, ?_, ?_⟩
  · rw [hlexemes, hchars]
  · rw [scanErrors, hlexemes]
    exact List.filterMap_eq_nil_iff.2 hnone
  · rw [htake, hoffset]

/-! ### The events of a scan -/

theorem isNone_error?_of_mem_row {p : Placed} {offset : Nat} {lexemes : List Lexeme}
    (hsound : ∀ sound ∈ lexemes, sound.fault? = none) (hp : p ∈ Placed.row offset lexemes) :
    p.error?.isNone := by
  have hnone : (Placed.row offset lexemes).filterMap Placed.error? = [] :=
    Placed.errors_row_eq_nil_iff.2 hsound
  simpa using List.filterMap_eq_nil_iff.1 hnone p hp

/-- Without an error, a run finds every token of the text. -/
theorem findsAhead_ofText_of_ok {text : String} (h : scanErrors text.toList = []) :
    (Scanner.ofText text).findsAhead = scanFound text.toList := by
  have hall : ∀ p ∈ (Scanner.ofText text).ahead, p.error?.isNone := fun p hp =>
    isNone_error?_of_mem_row (scanErrors_eq_nil_iff_fault?.1 h) hp
  rw [Scanner.findsAhead, List.takeWhile_eq_self_iff.2 hall]
  rfl

/-- With an error, a run finds every token of the text before the error. -/
theorem findsAhead_ofText_of_error {text : String} {error : ScanError}
    {errors : List ScanError} (h : scanErrors text.toList = error :: errors) :
    (Scanner.ofText text).findsAhead = scanFound (text.toList.take error.offset) := by
  obtain ⟨lexeme, behind, hchars, hfault, hsound, -⟩ := exists_faulty_of_scanErrors h
  rw [scanErrors_eq_nil_iff_fault?] at hsound
  have hahead : (Scanner.ofText text).ahead.takeWhile (·.error?.isNone) =
      Placed.row 0 (Lexeme.ofChars (text.toList.take error.offset)) := by
    show (Placed.row 0 (Lexeme.ofChars text.toList)).takeWhile _ = _
    rw [hchars, Placed.row_append, Placed.row,
      List.takeWhile_append_of_pos fun p hp => isNone_error?_of_mem_row hsound hp,
      List.takeWhile_cons_of_neg (by simp [Placed.error?, hfault]), List.append_nil]
  rw [Scanner.findsAhead, hahead, scanFound]

theorem scanLogged_fst (text : String) :
    (scanLogged text).1 =
      (Scanner.ofText text).findsAhead.map Event.ofLocated ++
        [.ofRun (Scanner.ofText text).run] := by
  have hlog := (Scanner.ofText text).runLogged_fst []
  have hevents : (scanLogged text).1 = ((Scanner.ofText text).runLogged []).1.reverse := by
    unfold scanLogged
    split <;> simp [*]
  rw [hevents, hlog]
  simp

/-- The log of a scan that succeeds names every token, and counts the characters and the
tokens. -/
theorem scanLogged_of_ok {text : String} {tokens : List Token} (h : scan text = .ok tokens) :
    (scanLogged text).1 =
      (scanFound text.toList).map Event.ofLocated ++ [.scanned text.length tokens.length] := by
  obtain ⟨herrors, htokens⟩ := scan_eq_ok_iff.1 h
  rcases hrun : (Scanner.ofText text).run with ⟨_ | error, next⟩
  · have hrest := Scanner.rest_of_run_ok hrun
    have hoffset := Scanner.offset_of_run hrun
    have hfound := (Scanner.outlook_of_run hrun).2
    rw [Scanner.allFound_of_rest_nil hrest] at hfound
    have hcount : next.found.length = tokens.length := by
      rw [← htokens, ← map_token_scanFound, List.length_map, ← List.length_reverse, hfound]
      rfl
    have hchars : next.offset = text.length := by
      rw [hrest] at hoffset
      simpa [Scanner.ofText, String.length_toList] using hoffset
    rw [scanLogged_fst, findsAhead_ofText_of_ok herrors, hrun, Event.ofRun, hcount, hchars]
  · simp [scan, Scanner.scan, hrun] at h

/-- The log of a scan that fails names every token before the error, and then the error. -/
theorem scanLogged_of_error {text : String} {error : ScanError} (h : scan text = .error error) :
    (scanLogged text).1 =
      (scanFound (text.toList.take error.offset)).map Event.ofLocated ++
        [.scanAborted error.message] := by
  obtain ⟨errors, herrors⟩ := List.head?_eq_some_iff.1 (scan_eq_error_iff_head?.1 h)
  rcases hrun : (Scanner.ofText text).run with ⟨_ | error', next⟩
  · simp [scan, Scanner.scan, hrun] at h
  · obtain rfl : error' = error := by simpa [scan, Scanner.scan, hrun] using h
    rw [scanLogged_fst, findsAhead_ofText_of_error herrors, hrun, Event.ofRun]

/-- The text before the first error is scanned without an error. -/
theorem scan_take_of_error {text : String} {error : ScanError} (h : scan text = .error error) :
    scan (String.ofList (text.toList.take error.offset)) =
        .ok ((scanFound (text.toList.take error.offset)).map Located.token) ∧
      (String.ofList (text.toList.take error.offset)).length = error.offset := by
  obtain ⟨errors, herrors⟩ := List.head?_eq_some_iff.1 (scan_eq_error_iff_head?.1 h)
  obtain ⟨-, -, -, -, hsound, hlength⟩ := exists_faulty_of_scanErrors herrors
  constructor
  · rw [scan_eq_ok_iff, String.toList_ofList, map_token_scanFound]
    exact ⟨hsound, rfl⟩
  · rw [String.length_ofList, hlength]

/-! ### The events of a read -/

theorem readLogged_of_ok {text : String} {tokens : List Token} (h : scan text = .ok tokens)
    (options : Options) :
    (readLogged text options).1 = (scanLogged text).1 ++ (parseLogged tokens options).1 := by
  rcases hlogged : scanLogged text with ⟨events, result⟩
  obtain rfl : result = .ok tokens := by
    rw [← h, ← scanLogged_snd, hlogged]
  rcases hparsed : parseLogged tokens options with ⟨more, _ | tree⟩
  all_goals simp [readLogged, hlogged, hparsed]

theorem readLogged_of_error {text : String} {error : ScanError} (h : scan text = .error error)
    (options : Options) : (readLogged text options).1 = (scanLogged text).1 := by
  rcases hlogged : scanLogged text with ⟨events, result⟩
  obtain rfl : result = .error error := by
    rw [← h, ← scanLogged_snd, hlogged]
  simp [readLogged, hlogged]

/-- The log of a read names the tokens of the text, one by one and in their order: an event
for each, with the place where its lexeme begins and the text that the token is shown as. A
scan that succeeds ends with the numbers of characters and tokens, and one event says what
came of the parse. A scan that fails has named the tokens of the text before the error, which
is scanned without one, and ends with the error. -/
theorem readLogged_events (text : String) (options : Options) :
    (∀ tokens, scan text = .ok tokens → ∃ found : List Located,
        found.map Located.token = tokens ∧ Tiling text.toList found ∧
          (readLogged text options).1 =
            found.map (fun l => .token l.offset l.token.text) ++
              [.scanned text.length tokens.length,
                match Tree.ofTokens tokens options with
                | .ok tree => .parsed tokens.length tree.size tree.depth
                | .error error => .parseAborted error.message]) ∧
      ∀ error, scan text = .error error → ∃ (front : String) (found : List Located),
        front.toList = text.toList.take error.offset ∧ front.length = error.offset ∧
          scan front = .ok (found.map Located.token) ∧ Tiling front.toList found ∧
            (scanLogged front).1 =
              found.map (fun l => .token l.offset l.token.text) ++
                [.scanned error.offset found.length] ∧
              (readLogged text options).1 =
                found.map (fun l => .token l.offset l.token.text) ++
                  [.scanAborted error.message] := by
  constructor
  · intro tokens hscan
    have hsound := (scan_eq_ok_iff_spells.1 hscan).1
    refine ⟨scanFound text.toList, ?_, tiling_scanFound hsound, ?_⟩
    · rw [map_token_scanFound]
      exact (scan_eq_ok_iff.1 hscan).2
    · rw [readLogged_of_ok hscan, scanLogged_of_ok hscan, parseLogged, Event.ofLocated_eq]
      cases Tree.ofTokens tokens options <;> simp
  · intro error hscan
    obtain ⟨hfront, hlength⟩ := scan_take_of_error hscan
    have hsound := (scan_eq_ok_iff_spells.1 hfront).1
    have hlog := scanLogged_of_ok hfront
    rw [String.toList_ofList] at hsound hlog
    refine ⟨String.ofList (text.toList.take error.offset), scanFound _, String.toList_ofList,
      hlength, hfront, ?_, ?_, ?_⟩
    · rw [String.toList_ofList]
      exact tiling_scanFound hsound
    · rw [hlog, hlength, List.length_map, Event.ofLocated_eq]
    · rw [readLogged_of_error hscan, scanLogged_of_error hscan, Event.ofLocated_eq]

/-- A parse that is given up for its depth, and a scan that is given up behind two tokens. -/
theorem readLogged_events_aborted :
    (∃ found : List Located, Tiling "(ab (+ ) 007)".toList found ∧
        (readLogged "(ab (+ ) 007)" ⟨some 1⟩).1 =
          found.map (fun l => .token l.offset l.token.text) ++
            [.scanned 13 7, .parseAborted "Nesting depth exceeds the limit of 1 at token 2"]) ∧
      (readLogged "(ab (+ ) 007)" ⟨some 1⟩).1 =
        [.token 0 "(", .token 1 "ab", .token 4 "(", .token 5 "+", .token 7 ")", .token 9 "7",
          .token 12 ")", .scanned 13 7,
          .parseAborted "Nesting depth exceeds the limit of 1 at token 2"] ∧
      (∃ (front : String) (found : List Located),
        front.toList = "(a +)".toList.take 3 ∧
          scan front = .ok (found.map Located.token) ∧
            (readLogged "(a +)").1 = found.map (fun l => .token l.offset l.token.text) ++
              [.scanAborted "Operator '+' at offset 3 must be followed by a space"]) ∧
      (readLogged "(a +)").1 =
        [.token 0 "(", .token 1 "a",
          .scanAborted "Operator '+' at offset 3 must be followed by a space"] := by
  have hscan : scan "(ab (+ ) 007)" = .ok [.openParen, .atom (.symbol "ab"), .openParen,
      .atom (.operator .plus), .closeParen, .atom (.integer 7), .closeParen] := by
    decide +kernel
  have hparse : Tree.ofTokens [.openParen, .atom (.symbol "ab"), .openParen,
      .atom (.operator .plus), .closeParen, .atom (.integer 7), .closeParen] ⟨some 1⟩ =
        .error (.nestingTooDeep 1 2) := by
    decide +kernel
  have hfault : scan "(a +)" = .error ⟨.unterminated .plus, 3⟩ := by decide +kernel
  have hmessage : ScanError.message ⟨.unterminated .plus, 3⟩ =
      "Operator '+' at offset 3 must be followed by a space" := by
    decide +kernel
  have hrefusal : ParseError.message (.nestingTooDeep 1 2) =
      "Nesting depth exceeds the limit of 1 at token 2" := by
    decide +kernel
  obtain ⟨found, -, htiling, hlog⟩ := (readLogged_events "(ab (+ ) 007)" ⟨some 1⟩).1 _ hscan
  obtain ⟨front, before, hfront, -, hsound, -, -, haborted⟩ :=
    (readLogged_events "(a +)" {}).2 _ hfault
  simp only [hparse, hrefusal] at hlog
  rw [hmessage] at haborted
  exact ⟨⟨found, htiling, hlog⟩, by decide +kernel, ⟨front, before, hfront, hsound, haborted⟩,
    by decide +kernel⟩

end SExpr
