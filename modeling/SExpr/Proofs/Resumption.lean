import SExpr.Proofs.Faults

/-!
Scanning on after an error. Repeated scans of one text report its faults one
after the other; the scan after the last fault hands out the tokens that the
text has when every faulty lexeme is overwritten by spaces, and later scans have
nothing left. Overwriting a faulty lexeme changes no other lexeme, since a space
ends every run and a faulty lexeme is no operator's space.
-/

namespace SExpr

namespace Scanner

/-- At the end of a text and with nothing in hand, a scanner stays as it is. -/
theorem scans_of_spent {s : Scanner} (hrest : s.rest = []) (hfound : s.found = []) (n : Nat) :
    s.scans n = List.replicate n (.ok []) := by
  induction n generalizing s with
  | zero => rfl
  | succ n ih =>
      obtain ⟨hresult, hrest', hfound'⟩ := scan_of_errorsAhead_nil (errorsAhead_of_rest_nil hrest)
      rw [allFound_of_rest_nil hrest, hfound] at hresult
      rw [scans, hresult, ih hrest' hfound', List.replicate_succ]
      rfl

/-- A scanner reports the errors ahead of it one by one, then hands out all
tokens at once, and then none. -/
theorem scans_eq (s : Scanner) (more : Nat) :
    s.scans (s.errorsAhead.length + (more + 1)) =
      s.errorsAhead.map .error ++
        .ok (s.allFound.map Located.token) :: List.replicate more (.ok []) := by
  -- the errors ahead carry the induction, since a scan takes exactly one of them away
  generalize herrors : s.errorsAhead = errors
  induction errors generalizing s with
  | nil =>
      obtain ⟨hresult, hrest, hfound⟩ := scan_of_errorsAhead_nil herrors
      rw [List.length_nil, Nat.zero_add, scans, hresult, scans_of_spent hrest hfound]
      rfl
  | cons error errors ih =>
      obtain ⟨hresult, hahead, hfound⟩ := scan_of_errorsAhead_cons herrors
      rw [List.length_cons, Nat.add_right_comm, scans, hresult, ih _ hahead, hfound]
      rfl

end Scanner

/-! ### Overwriting faulty lexemes -/

/-- The number of characters of the lexeme that a fault is about. -/
def ScanFault.width : ScanFault → Nat
  | .unrecognized _ => 1
  | .unterminated _ => 1
  | .outOfRange literal => literal.length

/-- Whether a place lies within the lexeme that an error is about. -/
def ScanError.covers (error : ScanError) (place : Nat) : Bool :=
  error.offset ≤ place && place < error.offset + error.fault.width

/-- A text with the lexemes that the errors are about overwritten by spaces. -/
def blankOut (errors : List ScanError) (cs : List Char) : List Char :=
  cs.mapIdx fun place c => if errors.any (·.covers place) then ' ' else c

namespace Lexeme

theorem width_of_fault {lexeme : Lexeme} {fault : ScanFault} (h : lexeme.fault? = some fault) :
    fault.width = lexeme.chars.length := by
  cases faulty_of_fault? h with
  | digits => simp [ScanFault.width, chars]
  | _ => rfl

/-- A lexeme as it is, or the blanks in its place if it is faulty. -/
def cleared (lexeme : Lexeme) : List Lexeme :=
  match lexeme.fault? with
  | none => [lexeme]
  | some _ => List.replicate lexeme.chars.length blank

theorem cleared_of_none {lexeme : Lexeme} (h : lexeme.fault? = none) :
    lexeme.cleared = [lexeme] := by
  simp [cleared, h]

theorem cleared_of_some {lexeme : Lexeme} {fault : ScanFault} (h : lexeme.fault? = some fault) :
    lexeme.cleared = List.replicate lexeme.chars.length blank := by
  simp [cleared, h]

theorem flatMap_chars_replicate_blank (n : Nat) :
    (List.replicate n blank).flatMap chars = List.replicate n ' ' := by
  induction n with
  | zero => rfl
  | succ n ih => rw [List.replicate_succ, List.flatMap_cons, ih]; rfl

theorem ofChars_replicate_blank_append (n : Nat) (rest : List Char) :
    ofChars (List.replicate n ' ' ++ rest) = List.replicate n blank ++ ofChars rest := by
  induction n with
  | zero => rfl
  | succ n ih =>
      have hfits : blank.Fits (List.replicate n ' ' ++ rest) := trivial
      rw [List.replicate_succ, List.replicate_succ, List.cons_append, List.cons_append, ← ih]
      exact ofChars_of_fits hfits

end Lexeme

/-- A text with its faulty lexemes overwritten, lexeme by lexeme. -/
def clearedChars (cs : List Char) : List Char :=
  ((Lexeme.ofChars cs).flatMap Lexeme.cleared).flatMap Lexeme.chars

theorem clearedChars_of_fits {lexeme : Lexeme} {rest : List Char} (h : lexeme.Fits rest) :
    clearedChars (lexeme.chars ++ rest) =
      lexeme.cleared.flatMap Lexeme.chars ++ clearedChars rest := by
  rw [clearedChars, Lexeme.ofChars_of_fits h, List.flatMap_cons, List.flatMap_append]
  rfl

/-- Overwriting leaves the first character of a text or makes it a space, so it
joins nothing to the lexeme before. -/
theorem head?_clearedChars (cs : List Char) :
    (clearedChars cs).head? = cs.head? ∨ (clearedChars cs).head? = some ' ' := by
  induction cs using Lexeme.induction with
  | nil => simp [clearedChars]
  | cons lexeme rest hfits ih =>
      rw [clearedChars_of_fits hfits]
      obtain ⟨c, tail, hchars⟩ := List.exists_cons_of_ne_nil hfits.chars_ne_nil
      cases hfault : lexeme.fault? with
      | none =>
          rw [Lexeme.cleared_of_none hfault]
          simp [hchars]
      | some fault =>
          rw [Lexeme.cleared_of_some hfault, Lexeme.flatMap_chars_replicate_blank]
          simp [hchars, List.replicate_succ]

theorem Lexeme.Fits.clearedChars {lexeme : Lexeme} {rest : List Char} (h : lexeme.Fits rest)
    (hfault : lexeme.fault? = none) : lexeme.Fits (clearedChars rest) := by
  rcases head?_clearedChars rest with hhead | hhead
  · exact h.of_head?_eq hhead
  · cases lexeme with
    | letters run =>
        refine ⟨h.1, h.2.1, ?_⟩
        simp [hhead]
    | digits run =>
        refine ⟨h.1, h.2.1, ?_⟩
        simp [hhead]
    | bareOperator op => simp [fault?, token?] at hfault
    | _ => exact h

/-- Overwriting changes no other lexeme. -/
theorem ofChars_clearedChars (cs : List Char) :
    Lexeme.ofChars (clearedChars cs) = (Lexeme.ofChars cs).flatMap Lexeme.cleared := by
  induction cs using Lexeme.induction with
  | nil => simp [clearedChars]
  | cons lexeme rest hfits ih =>
      rw [clearedChars_of_fits hfits, Lexeme.ofChars_of_fits hfits, List.flatMap_cons, ← ih]
      cases hfault : lexeme.fault? with
      | none =>
          rw [Lexeme.cleared_of_none hfault, List.flatMap_singleton]
          exact Lexeme.ofChars_of_fits (hfits.clearedChars hfault)
      | some fault =>
          rw [Lexeme.cleared_of_some hfault, Lexeme.flatMap_chars_replicate_blank]
          exact Lexeme.ofChars_replicate_blank_append _ _

theorem scanErrors_clearedChars (cs : List Char) : scanErrors (clearedChars cs) = [] := by
  rw [scanErrors_eq_nil_iff_fault?, ofChars_clearedChars]
  intro lexeme hmem
  obtain ⟨original, -, hmem⟩ := List.mem_flatMap.1 hmem
  cases hfault : original.fault? with
  | none =>
      rw [Lexeme.cleared_of_none hfault, List.mem_singleton] at hmem
      exact hmem ▸ hfault
  | some fault =>
      rw [Lexeme.cleared_of_some hfault] at hmem
      rw [List.eq_of_mem_replicate hmem]
      rfl

theorem scanTokens_clearedChars (cs : List Char) :
    scanTokens (clearedChars cs) = scanTokens cs := by
  rw [scanTokens, scanTokens, ofChars_clearedChars]
  induction Lexeme.ofChars cs with
  | nil => rfl
  | cons lexeme lexemes ih =>
      rw [List.flatMap_cons, List.filterMap_append, ih, List.filterMap_cons]
      cases hfault : lexeme.fault? with
      | none =>
          rw [Lexeme.cleared_of_none hfault]
          cases hkept : lexeme.kept? <;> simp [hkept]
      | some fault =>
          rw [Lexeme.cleared_of_some hfault, Lexeme.kept?_eq_none_of_fault hfault]
          simp [Lexeme.kept?, Lexeme.token?]

/-! ### Overwriting place by place -/

/-- Whether a place lies within a faulty lexeme of a row. -/
def Placed.covered (start : Nat) (lexemes : List Lexeme) (place : Nat) : Bool :=
  ((row start lexemes).filterMap error?).any (·.covers place)

theorem Placed.covered_first {lexeme : Lexeme} {lexemes : List Lexeme} {start place : Nat}
    (hplace : place < lexeme.chars.length) :
    covered start (lexeme :: lexemes) (start + place) = lexeme.fault?.isSome := by
  -- the errors of later lexemes stand behind the place
  have hothers : ((row (start + lexeme.chars.length) lexemes).filterMap error?).any
      (·.covers (start + place)) = false := by
    rw [List.any_eq_false]
    intro error hmem
    have hle := le_offset_of_mem_errors hmem
    simp only [ScanError.covers, Bool.and_eq_true, decide_eq_true_eq]
    omega
  rw [covered, row, List.filterMap_cons]
  cases hfault : lexeme.fault? with
  | none => simpa [error?, hfault] using hothers
  | some fault =>
      have hwidth := Lexeme.width_of_fault hfault
      simp [error?, hfault, ScanError.covers, hwidth, hplace]

theorem Placed.covered_behind {lexeme : Lexeme} {lexemes : List Lexeme} {start place : Nat} :
    covered start (lexeme :: lexemes) (start + (place + lexeme.chars.length)) =
      covered (start + lexeme.chars.length) lexemes (start + lexeme.chars.length + place) := by
  have hplace : start + (place + lexeme.chars.length) = start + lexeme.chars.length + place := by
    omega
  rw [hplace, covered, row, List.filterMap_cons]
  cases hfault : lexeme.fault? with
  | none => simp [error?, hfault, covered]
  | some fault =>
      have hwidth := Lexeme.width_of_fault hfault
      have hfirst : ScanError.covers ⟨fault, start⟩ (start + lexeme.chars.length + place) =
          false := by
        simp only [ScanError.covers, hwidth, Bool.and_eq_false_iff, decide_eq_false_iff_not]
        omega
      simp [error?, hfault, covered, hfirst]

theorem Placed.mapIdx_covered_first (start : Nat) (lexeme : Lexeme) (lexemes : List Lexeme) :
    lexeme.chars.mapIdx (fun place c =>
      if covered start (lexeme :: lexemes) (start + place) then ' ' else c) =
        lexeme.cleared.flatMap Lexeme.chars := by
  have hmap : lexeme.chars.mapIdx (fun place c =>
      if covered start (lexeme :: lexemes) (start + place) then ' ' else c) =
        lexeme.chars.map (fun c => if lexeme.fault?.isSome then ' ' else c) := by
    apply List.ext_getElem (by simp)
    intro place hplace _
    rw [List.length_mapIdx] at hplace
    rw [List.getElem_mapIdx, List.getElem_map, covered_first hplace]
  rw [hmap]
  cases hfault : lexeme.fault? with
  | none => simp [Lexeme.cleared_of_none hfault]
  | some fault =>
      rw [Lexeme.cleared_of_some hfault, Lexeme.flatMap_chars_replicate_blank]
      simp [List.map_const']

/-- Overwriting place by place is overwriting lexeme by lexeme. -/
theorem mapIdx_covered (start : Nat) (cs : List Char) :
    cs.mapIdx (fun place c =>
      if Placed.covered start (Lexeme.ofChars cs) (start + place) then ' ' else c) =
        clearedChars cs := by
  induction cs using Lexeme.induction generalizing start with
  | nil => simp [clearedChars]
  | cons lexeme rest hfits ih =>
      rw [clearedChars_of_fits hfits, ← ih (start + lexeme.chars.length), List.mapIdx_append,
        Lexeme.ofChars_of_fits hfits, Placed.mapIdx_covered_first]
      simp only [Placed.covered_behind]

theorem blankOut_scanErrors (cs : List Char) : blankOut (scanErrors cs) cs = clearedChars cs := by
  rw [← mapIdx_covered 0]
  simp [blankOut, scanErrors, Placed.covered]

/-- Scanned again and again, a text reports each of its faults once, in their
order; then it yields the tokens it has with the faulty lexemes overwritten by
spaces, which is no faulty text; and then nothing more. -/
theorem scans_report_every_fault (text : String) :
    ∃ errors tokens, errors.Pairwise (·.offset < ·.offset) ∧
      (∀ offset fault, ⟨fault, offset⟩ ∈ errors ↔ FaultAt text.toList offset fault) ∧
      scan (String.ofList (blankOut errors text.toList)) = .ok tokens ∧
      ∀ more, (Scanner.ofText text).scans (errors.length + (more + 1)) =
        errors.map .error ++ .ok tokens :: List.replicate more (.ok []) := by
  refine ⟨scanErrors text.toList, scanTokens text.toList, pairwise_scanErrors _,
    fun offset fault => faultAt_iff_mem_scanErrors.symm, ?_, fun more => ?_⟩
  · rw [scan_eq_ok_iff, String.toList_ofList, blankOut_scanErrors]
    exact ⟨scanErrors_clearedChars _, scanTokens_clearedChars _⟩
  · rw [← errorsAhead_ofText, Scanner.scans_eq, allFound_ofText]

end SExpr
