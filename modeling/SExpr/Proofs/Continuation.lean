import SExpr.Proofs.Reports

/-!
Scanning a text that goes on behind its first error. The lexemes before the faulty one are
those of the longer text as well, so a scan comes to the same place; and there it meets the
same lexeme unless that one reached the end of the first text and the second goes on with
it: with the space that an operator lacked, or with more digits of a number that is too
large already.
-/

namespace SExpr

theorem Text.le_ofDigitChars (run : List Char) (n : Nat) : n ≤ Nat.ofDigitChars 10 run n := by
  induction run generalizing n with
  | nil => simp
  | cons c run ih =>
      rw [Nat.ofDigitChars_cons]
      exact Nat.le_trans (by omega) (ih _)

/-- More digits make no number smaller. -/
theorem Text.value_le_value_append (run more : List Char) :
    Text.value run ≤ Text.value (run ++ more) := by
  rw [Text.value, Text.value, Nat.ofDigitChars_append]
  exact Text.le_ofDigitChars more _

namespace Lexeme

/-- The lexemes before a lexeme do not depend on what follows it. -/
theorem ofChars_append_of_ofChars {as : List Char} {earlier later : List Lexeme}
    {lexeme : Lexeme} (h : ofChars as = earlier ++ lexeme :: later) (bs : List Char) :
    ∃ rest, as = earlier.flatMap chars ++ (lexeme.chars ++ rest) ∧ lexeme.Fits rest ∧
      ofChars (as ++ bs) = earlier ++ ofChars (lexeme.chars ++ (rest ++ bs)) := by
  induction as using Lexeme.induction generalizing earlier with
  | nil => simp at h
  | cons first rest hfits ih =>
      rw [ofChars_of_fits hfits] at h
      cases earlier with
      | nil =>
          obtain ⟨rfl, rfl⟩ := List.cons.inj h
          exact ⟨rest, rfl, hfits, by rw [List.append_assoc, List.nil_append]⟩
      | cons other earlier =>
          obtain ⟨rfl, hrest⟩ := List.cons.inj h
          obtain ⟨behind, heq, hbehind, hchars⟩ := ih hrest
          have hne : rest ≠ [] := by
            rintro rfl
            simp at hrest
          have hfits' : first.Fits (rest ++ bs) :=
            hfits.of_head?_eq (List.head?_append_of_ne_nil _ hne)
          refine ⟨behind, ?_, hbehind, ?_⟩
          · rw [List.flatMap_cons, List.append_assoc, ← heq]
          · rw [List.append_assoc, ofChars_of_fits hfits', hchars, List.cons_append]

end Lexeme

/-- Behind a text without errors, a faulty lexeme is the first error. -/
theorem head?_scanErrors_of_ofChars {front cs : List Char} {first : Lexeme} {later : List Lexeme}
    {fault : ScanFault} (h : Lexeme.ofChars cs = Lexeme.ofChars front ++ first :: later)
    (hfront : scanErrors front = []) (hfirst : first.Faulty fault) :
    (scanErrors cs).head? = some ⟨fault, front.length⟩ := by
  have hplaced : Placed.error? ⟨front.length, first⟩ = some ⟨fault, front.length⟩ :=
    Placed.error?_eq_some_iff.2 ⟨hfirst.fault?, rfl⟩
  rw [scanErrors] at hfront
  rw [scanErrors, h, Placed.row_append, List.filterMap_append, hfront, List.nil_append,
    Lexeme.flatMap_chars_ofChars, Nat.zero_add, Placed.row, List.filterMap_cons, hplaced]
  rfl

/-- The first error of a text is about a lexeme that fits where it stands, and if a faulty
lexeme fits there in a longer text, the first error of that text is about this one. -/
theorem scan_append_of_error {a : String} {error : ScanError} (h : scan a = .error error)
    (b : String) :
    ∃ (lexeme : Lexeme) (rest : List Char), lexeme.Fits rest ∧ lexeme.Faulty error.fault ∧
      a.length = error.offset + (lexeme.chars.length + rest.length) ∧
      ∀ (first : Lexeme) (more : List Char) (fault : ScanFault), first.Fits more →
        first.Faulty fault → first.chars ++ more = lexeme.chars ++ (rest ++ b.toList) →
          scan (a ++ b) = .error ⟨fault, error.offset⟩ := by
  obtain ⟨errors, herrors⟩ := List.head?_eq_some_iff.1 (scan_eq_error_iff_head?.1 h)
  obtain ⟨lexeme, later, hchars, hfault, hsound, hlength⟩ := exists_faulty_of_scanErrors herrors
  obtain ⟨rest, ha, hfits, hboth⟩ := Lexeme.ofChars_append_of_ofChars hchars b.toList
  refine ⟨lexeme, rest, hfits, Lexeme.faulty_of_fault? hfault, ?_, ?_⟩
  · have hcount := congrArg List.length ha
    rwa [Lexeme.flatMap_chars_ofChars, List.length_append, List.length_append, hlength,
      String.length_toList] at hcount
  · intro first more fault hmore hfirst heq
    rw [← heq, Lexeme.ofChars_of_fits hmore, ← String.toList_append] at hboth
    have hhead := head?_scanErrors_of_ofChars hboth hsound hfirst
    rw [hlength] at hhead
    exact scan_eq_error_iff_head?.2 hhead

section

variable {a : String} {offset : Nat}

theorem scan_append_of_unrecognized {c : Char} (h : scan a = .error ⟨.unrecognized c, offset⟩)
    (b : String) : scan (a ++ b) = .error ⟨.unrecognized c, offset⟩ := by
  obtain ⟨lexeme, rest, hfits, hfaulty, -, hfirst⟩ := scan_append_of_error h b
  cases hfaulty with
  | foreign c => exact hfirst (.foreign c) (rest ++ b.toList) _ hfits (.foreign c) rfl

theorem scan_append_of_unterminated {op : Operator}
    (h : scan a = .error ⟨.unterminated op, offset⟩) (b : String) :
    scan (a ++ b) = .error ⟨.unterminated op, offset⟩ ↔
      ¬ (offset + 1 = a.length ∧ b.toList.head? = some ' ') := by
  obtain ⟨lexeme, rest, hfits, hfaulty, hlength, hfirst⟩ := scan_append_of_error h b
  constructor
  · rintro hboth ⟨hend, hspace⟩
    -- the fault says that no space follows the operator
    obtain ⟨hfaultAt, -⟩ := head?_scanErrors_eq_some_iff.1 (scan_eq_error_iff_head?.1 hboth)
    cases hfaultAt with
    | unterminated _ hnone =>
        apply hnone
        rw [String.toList_append, hend, ← String.length_toList,
          List.getElem?_append_right (Nat.le_refl _), Nat.sub_self, ← List.head?_eq_getElem?]
        exact hspace
  · intro hopen
    cases hfaulty with
    | bareOperator op =>
        refine hfirst (.bareOperator op) (rest ++ b.toList) _ ?_ (.bareOperator op) rfl
        cases rest with
        | nil => exact fun hspace => hopen ⟨hlength.symm, hspace⟩
        | cons c rest => exact hfits

theorem scan_append_of_outOfRange {literal : String}
    (h : scan a = .error ⟨.outOfRange literal, offset⟩) (b : String) :
    scan (a ++ b) = .error ⟨.outOfRange (if offset + literal.length = a.length
      then literal ++ String.ofList (b.toList.takeWhile Char.isDigit) else literal), offset⟩ := by
  obtain ⟨lexeme, rest, hfits, hfaulty, hlength, hfirst⟩ := scan_append_of_error h b
  cases hfaulty with
  | @digits run hvalue =>
      obtain ⟨hne, hrun, hrest⟩ := hfits
      rw [String.length_ofList]
      cases rest with
      | nil =>
          -- the run goes on with the digits that the second text begins with
          obtain ⟨hdigits, hstop⟩ := span_class Char.isDigit b.toList
          have hend : offset + run.length = a.length := hlength.symm
          rw [if_pos hend, ← String.ofList_append]
          refine hfirst (.digits (run ++ b.toList.takeWhile Char.isDigit))
            (b.toList.dropWhile Char.isDigit) _ ⟨by simp [hne], ?_, hstop⟩ (.digits ?_) ?_
          · exact List.forall_mem_append.2 ⟨hrun, hdigits⟩
          · exact Nat.le_trans hvalue (Text.value_le_value_append _ _)
          · rw [Lexeme.chars, Lexeme.chars, List.append_assoc, List.takeWhile_append_dropWhile,
              List.nil_append]
      | cons c rest =>
          have hinside : offset + run.length ≠ a.length := by
            have hbehind : a.length = offset + (run.length + (rest.length + 1)) := hlength
            omega
          rw [if_neg hinside]
          exact hfirst (.digits run) (c :: rest ++ b.toList) _ ⟨hne, hrun, hrest⟩
            (.digits hvalue) rfl

end

/-- An error of a scan stays when the text goes on. Only an operator at the end of the first
text may find its space in the second, and a number at the end of it takes the digits that
the second begins with. -/
theorem scan_error_of_continued (a b : String) :
    (∀ c offset, scan a = .error ⟨.unrecognized c, offset⟩ →
        scan (a ++ b) = .error ⟨.unrecognized c, offset⟩) ∧
      (∀ op offset, scan a = .error ⟨.unterminated op, offset⟩ →
        (scan (a ++ b) = .error ⟨.unterminated op, offset⟩ ↔
          ¬ (offset + 1 = a.length ∧ b.toList.head? = some ' '))) ∧
      ∀ literal offset, scan a = .error ⟨.outOfRange literal, offset⟩ →
        scan (a ++ b) = .error ⟨.outOfRange (if offset + literal.length = a.length
          then literal ++ String.ofList (b.toList.takeWhile Char.isDigit) else literal),
          offset⟩ :=
  ⟨fun _ _ h => scan_append_of_unrecognized h b, fun _ _ h => scan_append_of_unterminated h b,
    fun _ _ h => scan_append_of_outOfRange h b⟩

/-- A character outside the alphabet, an operator that finds its space, and a number that
goes on. -/
theorem scan_error_of_continued_kinds :
    scan ("(é" ++ "7") = .error ⟨.unrecognized 'é', 1⟩ ∧
      scan ("a+" ++ " b") ≠ .error ⟨.unterminated .plus, 1⟩ ∧
        scan ("a 18446744073709551616" ++ "07b") =
          .error ⟨.outOfRange "1844674407370955161607", 2⟩ := by
  have hforeign : scan "(é" = .error ⟨.unrecognized 'é', 1⟩ := by decide +kernel
  have hop : scan "a+" = .error ⟨.unterminated .plus, 1⟩ := by decide +kernel
  have hrange : scan "a 18446744073709551616" =
      .error ⟨.outOfRange "18446744073709551616", 2⟩ := by
    decide +kernel
  refine ⟨(scan_error_of_continued _ "7").1 _ _ hforeign, ?_, ?_⟩
  · intro hboth
    exact ((scan_error_of_continued _ " b").2.1 _ _ hop).1 hboth ⟨rfl, rfl⟩
  · exact (scan_error_of_continued _ "07b").2.2 _ _ hrange

end SExpr
