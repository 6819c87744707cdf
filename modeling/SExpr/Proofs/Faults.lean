import Mathlib.Tactic.Tauto
import SExpr.Proofs.Scanning

/-!
Where a text is faulty. `FaultAt` says what is wrong at one place of a text by
the characters around that place, with no regard to how a scanner comes there;
`faultAt_iff_mem_scanErrors` says that the scanner finds the same faults at the
same places. It holds because a place inside a lexeme is faulty only at the
lexeme's first character, and a place behind it as if the text began there.
-/

namespace SExpr

/-- A run of characters of one class that stands at a place of a text and cannot
be made longer at either end. -/
structure MaximalRun (p : Char → Bool) (cs : List Char) (offset : Nat) (run : List Char) :
    Prop where
  ne_nil : run ≠ []
  inClass : ∀ c ∈ run, p c
  stands : run <+: cs.drop offset
  before : ∀ place, place + 1 = offset → ∀ c ∈ cs[place]?, ¬ p c
  behind : ∀ c ∈ cs[offset + run.length]?, ¬ p c

/-- What is wrong at a place of a text. -/
inductive FaultAt (cs : List Char) (offset : Nat) : ScanFault → Prop where
  /-- A character outside the alphabet. -/
  | unrecognized {c : Char} (hc : cs[offset]? = some c) (hforeign : ¬ InAlphabet c) :
      FaultAt cs offset (.unrecognized c)
  /-- An operator that no space follows. -/
  | unterminated {op : Operator} (hop : cs[offset]? = some op.toChar)
      (hspace : cs[offset + 1]? ≠ some ' ') :
      FaultAt cs offset (.unterminated op)
  /-- A maximal run of digits whose value is no 64-bit word. -/
  | outOfRange {run : List Char} (hrun : MaximalRun Char.isDigit cs offset run)
      (hvalue : UInt64.size ≤ Text.value run) : FaultAt cs offset (.outOfRange (String.ofList run))

/-- The character behind a part of a text that stands at a place. -/
theorem getElem?_behind {cs run rest : List Char} {offset : Nat}
    (h : run ++ rest = cs.drop offset) : cs[offset + run.length]? = rest.head? := by
  rw [← List.getElem?_drop, ← h, List.getElem?_append_right (Nat.le_refl _), Nat.sub_self,
    ← List.head?_eq_getElem?]

namespace MaximalRun

variable {p : Char → Bool} {cs run : List Char} {offset : Nat}

theorem exists_head (h : MaximalRun p cs offset run) : ∃ c, cs[offset]? = some c ∧ p c := by
  obtain ⟨c, tail, rfl⟩ := List.exists_cons_of_ne_nil h.ne_nil
  refine ⟨c, ?_, h.inClass c List.mem_cons_self⟩
  obtain ⟨rest, hrest⟩ := h.stands
  have hhead := congrArg List.head? hrest
  simpa using hhead.symm

/-- The run is all that the class holds from its place on. -/
theorem eq_takeWhile (h : MaximalRun p cs offset run) :
    run = (cs.drop offset).takeWhile p := by
  obtain ⟨rest, hrest⟩ := h.stands
  have hbehind : ∀ c ∈ rest.head?, ¬ p c := by
    intro c hc
    rw [← getElem?_behind hrest] at hc
    exact h.behind c hc
  rw [← hrest, (span_run h.inClass hbehind).1]

end MaximalRun

/-- Where no run goes on from one text into the next, the runs of the second are
those that the two together have behind the first. -/
theorem maximalRun_append_iff {p : Char → Bool} {as bs run : List Char} {offset : Nat}
    (hseam : ∀ a ∈ as.getLast?, ∀ b ∈ bs.head?, ¬ (p a ∧ p b)) :
    MaximalRun p (as ++ bs) (as.length + offset) run ↔ MaximalRun p bs offset run := by
  have hdrop : (as ++ bs).drop (as.length + offset) = bs.drop offset := by
    simp [List.drop_append]
  have hplace (place : Nat) : (as ++ bs)[as.length + place]? = bs[place]? := by
    simp [List.getElem?_append_right]
  constructor
  · intro h
    refine ⟨h.ne_nil, h.inClass, hdrop ▸ h.stands, ?_, ?_⟩
    · intro place hbefore
      rw [← hplace]
      exact h.before (as.length + place) (by omega)
    · rw [← hplace, ← Nat.add_assoc]
      exact h.behind
  · intro h
    refine ⟨h.ne_nil, h.inClass, hdrop ▸ h.stands, ?_, ?_⟩
    · intro place hbefore a ha hpa
      cases offset with
      | zero =>
          obtain ⟨b, hb, hpb⟩ := h.exists_head
          have hlast : place = as.length - 1 := by omega
          rw [List.getElem?_append_left (by omega), hlast, ← List.getLast?_eq_getElem?] at ha
          rw [← List.head?_eq_getElem?] at hb
          exact hseam a ha b hb ⟨hpa, hpb⟩
      | succ offset =>
          obtain rfl : place = as.length + offset := by omega
          rw [hplace] at ha
          exact h.before offset rfl a ha hpa
    · rw [Nat.add_assoc, hplace]
      exact h.behind

/-- Where a class holds all of a text and not what follows it, the one run that
begins within the text is the text. -/
theorem maximalRun_front_iff {p : Char → Bool} {as bs run : List Char} {offset : Nat}
    (hfront : (∀ c ∈ as, p c) ∧ ∀ c ∈ bs.head?, ¬ p c) (hoffset : offset < as.length) :
    MaximalRun p (as ++ bs) offset run ↔ offset = 0 ∧ run = as := by
  constructor
  · intro h
    obtain rfl : offset = 0 := by
      cases offset with
      | zero => rfl
      -- a run that began further back could be made longer by the character before it
      | succ place =>
          have hlt : place < as.length := Nat.lt_of_succ_lt hoffset
          have hbefore : (as ++ bs)[place]? = some as[place] := by
            rw [List.getElem?_append_left hlt, List.getElem?_eq_getElem]
          exact absurd (hfront.1 _ (List.getElem_mem hlt)) (h.before place rfl _ hbefore)
    refine ⟨rfl, ?_⟩
    rw [h.eq_takeWhile]
    exact (span_run hfront.1 hfront.2).1
  · rintro ⟨rfl, rfl⟩
    refine ⟨List.ne_nil_of_length_pos hoffset, hfront.1, ⟨bs, rfl⟩, by simp, ?_⟩
    simpa [List.getElem?_append_right, ← List.head?_eq_getElem?] using hfront.2

theorem not_maximalRun_front {p : Char → Bool} {as bs run : List Char} {offset : Nat}
    (hfront : ∀ c ∈ as, ¬ p c) (hoffset : offset < as.length) :
    ¬ MaximalRun p (as ++ bs) offset run := by
  intro h
  obtain ⟨c, hc, hpc⟩ := h.exists_head
  rw [List.getElem?_append_left hoffset] at hc
  exact hfront c (List.mem_of_getElem? hc) hpc

namespace FaultAt

variable {cs : List Char} {offset : Nat} {fault : ScanFault}

/-! ### Faults by the class of the first character -/

theorem not_of_plain {c : Char} (hc : cs[offset]? = some c)
    (hplain : c = ' ' ∨ c = '(' ∨ c = ')' ∨ c.isAlpha) : ¬ FaultAt cs offset fault := by
  rintro (⟨hc', hforeign⟩ | ⟨hop, -⟩ | ⟨hrun, -⟩)
  · cases hc.symm.trans hc'
    apply hforeign
    unfold InAlphabet
    tauto
  · cases hc.symm.trans hop
    simp [Operator.toChar_class] at hplain
  · obtain ⟨c', hc', hdigit⟩ := hrun.exists_head
    cases hc.symm.trans hc'
    rcases hplain with rfl | rfl | rfl | halpha
    · simp at hdigit
    · simp at hdigit
    · simp at hdigit
    · exact not_isAlpha_of_isDigit hdigit halpha

theorem iff_of_digit {c : Char} (hc : cs[offset]? = some c) (hdigit : c.isDigit) :
    FaultAt cs offset fault ↔ ∃ run, MaximalRun Char.isDigit cs offset run ∧
      UInt64.size ≤ Text.value run ∧ fault = .outOfRange (String.ofList run) := by
  constructor
  · rintro (⟨hc', hforeign⟩ | ⟨hop, -⟩ | ⟨hrun, hvalue⟩)
    · cases hc.symm.trans hc'
      simp [InAlphabet, hdigit] at hforeign
    · cases hc.symm.trans hop
      simp [Operator.toChar_class] at hdigit
    · exact ⟨_, hrun, hvalue, rfl⟩
  · rintro ⟨run, hrun, hvalue, rfl⟩
    exact .outOfRange hrun hvalue

theorem iff_of_operator {op : Operator} (hc : cs[offset]? = some op.toChar) :
    FaultAt cs offset fault ↔ cs[offset + 1]? ≠ some ' ' ∧ fault = .unterminated op := by
  constructor
  · rintro (⟨hc', hforeign⟩ | ⟨hop, hspace⟩ | ⟨hrun, -⟩)
    · cases hc.symm.trans hc'
      simp [InAlphabet] at hforeign
    · obtain rfl := Operator.toChar_injective (Option.some.inj (hc.symm.trans hop))
      exact ⟨hspace, rfl⟩
    · obtain ⟨c, hc', hdigit⟩ := hrun.exists_head
      cases hc.symm.trans hc'
      simp [op.toChar_class] at hdigit
  · rintro ⟨hspace, rfl⟩
    exact .unterminated hc hspace

theorem iff_of_foreign {c : Char} (hc : cs[offset]? = some c) (hforeign : ¬ InAlphabet c) :
    FaultAt cs offset fault ↔ fault = .unrecognized c := by
  constructor
  · rintro (⟨hc', -⟩ | ⟨hop, -⟩ | ⟨hrun, -⟩)
    · cases hc.symm.trans hc'
      rfl
    · cases hc.symm.trans hop
      simp [InAlphabet] at hforeign
    · obtain ⟨c', hc', hdigit⟩ := hrun.exists_head
      cases hc.symm.trans hc'
      simp [InAlphabet, hdigit] at hforeign
  · rintro rfl
    exact .unrecognized hc hforeign

/-! ### Faults and lexemes -/

theorem lt_length (h : FaultAt cs offset fault) : offset < cs.length := by
  have hplace {c : Char} (hc : cs[offset]? = some c) : offset < cs.length :=
    (List.getElem?_eq_some_iff.1 hc).1
  rcases h with ⟨hc, -⟩ | ⟨hc, -⟩ | ⟨hrun, -⟩
  · exact hplace hc
  · exact hplace hc
  · obtain ⟨c, hc, -⟩ := hrun.exists_head
    exact hplace hc

theorem not_nil : ¬ FaultAt [] offset fault :=
  fun h => Nat.not_lt_zero offset h.lt_length

/-- Behind a lexeme a text has the faults that it would have without the lexeme. -/
theorem append_iff {lexeme : Lexeme} {rest : List Char} (h : lexeme.Fits rest) :
    FaultAt (lexeme.chars ++ rest) (lexeme.chars.length + offset) fault ↔
      FaultAt rest offset fault := by
  have hplace (place : Nat) :
      (lexeme.chars ++ rest)[lexeme.chars.length + place]? = rest[place]? := by
    simp [List.getElem?_append_right]
  have hseam : ∀ a ∈ lexeme.chars.getLast?, ∀ b ∈ rest.head?, ¬ (a.isDigit ∧ b.isDigit) :=
    fun a ha b hb hdigits => h.not_joins a ha b hb (.inl hdigits)
  constructor
  · rintro (⟨hc, hforeign⟩ | ⟨hop, hspace⟩ | ⟨hrun, hvalue⟩)
    · exact .unrecognized (hplace _ ▸ hc) hforeign
    · rw [Nat.add_assoc, hplace] at hspace
      exact .unterminated (hplace _ ▸ hop) hspace
    · exact .outOfRange ((maximalRun_append_iff hseam).1 hrun) hvalue
  · rintro (⟨hc, hforeign⟩ | ⟨hop, hspace⟩ | ⟨hrun, hvalue⟩)
    · exact .unrecognized ((hplace _).trans hc) hforeign
    · rw [← hplace, ← Nat.add_assoc] at hspace
      exact .unterminated ((hplace _).trans hop) hspace
    · exact .outOfRange ((maximalRun_append_iff hseam).2 hrun) hvalue

end FaultAt

theorem Lexeme.fault?_digits_eq_some_iff {run : List Char} {fault : ScanFault} :
    (Lexeme.digits run).fault? = some fault ↔
      UInt64.size ≤ Text.value run ∧ fault = .outOfRange (String.ofList run) := by
  rw [← Word.ofNat?_eq_none_iff, Lexeme.fault?, Lexeme.token?, Text.word?]
  cases Word.ofNat? (Text.value run) <;> simp [eq_comm]

/-- The lexemes with a fault, and what is wrong with them. -/
inductive Lexeme.Faulty : Lexeme → ScanFault → Prop where
  | foreign (c : Char) : Faulty (foreign c) (.unrecognized c)
  | bareOperator (op : Operator) : Faulty (bareOperator op) (.unterminated op)
  | digits {run : List Char} (h : UInt64.size ≤ Text.value run) :
      Faulty (digits run) (.outOfRange (String.ofList run))

theorem Lexeme.faulty_of_fault? {lexeme : Lexeme} {fault : ScanFault}
    (h : lexeme.fault? = some fault) : lexeme.Faulty fault := by
  cases lexeme with
  | digits run =>
      obtain ⟨hvalue, rfl⟩ := fault?_digits_eq_some_iff.1 h
      exact .digits hvalue
  | bareOperator op =>
      cases h
      exact .bareOperator op
  | foreign c =>
      cases h
      exact .foreign c
  | _ => cases h

theorem Lexeme.Faulty.fault? {lexeme : Lexeme} {fault : ScanFault} (h : lexeme.Faulty fault) :
    lexeme.fault? = some fault := by
  cases h with
  | digits hvalue => exact fault?_digits_eq_some_iff.2 ⟨hvalue, rfl⟩
  | _ => rfl

/-- Inside a lexeme only the first character can be faulty, and is so exactly when
the lexeme is. -/
theorem Lexeme.faultAt_iff {lexeme : Lexeme} {rest : List Char} (h : lexeme.Fits rest)
    {offset : Nat} (hoffset : offset < lexeme.chars.length) {fault : ScanFault} :
    FaultAt (lexeme.chars ++ rest) offset fault ↔ offset = 0 ∧ lexeme.fault? = some fault := by
  have hplace : (lexeme.chars ++ rest)[offset]? = some lexeme.chars[offset] := by
    rw [List.getElem?_append_left hoffset, List.getElem?_eq_getElem]
  have hmem : lexeme.chars[offset] ∈ lexeme.chars := List.getElem_mem hoffset
  cases lexeme with
  | letters run =>
      have halpha := h.2.1 _ hmem
      simp [FaultAt.not_of_plain hplace (by tauto), fault?, token?]
  | digits run =>
      have hdigit := h.2.1 _ hmem
      rw [FaultAt.iff_of_digit hplace hdigit, fault?_digits_eq_some_iff]
      constructor
      · rintro ⟨run', hrun', hvalue, hfault⟩
        obtain ⟨rfl, rfl⟩ := (maximalRun_front_iff h.2 hoffset).1 hrun'
        exact ⟨rfl, hvalue, hfault⟩
      · rintro ⟨hzero, hvalue, hfault⟩
        exact ⟨run, (maximalRun_front_iff h.2 hoffset).2 ⟨hzero, rfl⟩, hvalue, hfault⟩
  | operator op =>
      have hcases : offset = 0 ∨ offset = 1 := by
        have : offset < 2 := hoffset
        omega
      -- the operator, and the space that terminates it
      rcases hcases with rfl | rfl
      · rw [FaultAt.iff_of_operator hplace]
        simp [chars, fault?, token?]
      · simp [FaultAt.not_of_plain hplace (.inl rfl)]
  | bareOperator op =>
      obtain rfl : offset = 0 := Nat.lt_one_iff.1 hoffset
      rw [FaultAt.iff_of_operator hplace]
      have hspace : rest[0]? ≠ some ' ' := by
        rw [← List.head?_eq_getElem?]
        exact h
      simp [chars, fault?, token?, hspace, eq_comm]
  | foreign c =>
      obtain rfl : offset = 0 := Nat.lt_one_iff.1 hoffset
      rw [FaultAt.iff_of_foreign hplace h]
      simp [chars, fault?, token?, eq_comm]
  | _ =>
      obtain rfl : offset = 0 := Nat.lt_one_iff.1 hoffset
      simp [FaultAt.not_of_plain hplace (by simp [chars]), fault?, token?]

/-! ### The errors of a text -/

theorem faultAt_iff_mem_scanErrors {cs : List Char} {offset : Nat} {fault : ScanFault} :
    FaultAt cs offset fault ↔ ⟨fault, offset⟩ ∈ scanErrors cs := by
  have hrow := Placed.exists_mem_row_iff (fun _ _ => FaultAt.not_nil)
    (fun _ _ _ _ h hoffset => Lexeme.faultAt_iff h hoffset)
    (fun _ _ _ _ h => FaultAt.append_iff h) cs 0 offset fault
  rw [← hrow, Nat.zero_add, scanErrors, List.mem_filterMap]
  constructor
  · rintro ⟨lexeme, hmem, hfault⟩
    exact ⟨⟨offset, lexeme⟩, hmem, Placed.error?_eq_some_iff.2 ⟨hfault, rfl⟩⟩
  · rintro ⟨⟨place, lexeme⟩, hmem, herror⟩
    obtain ⟨hfault, rfl⟩ := Placed.error?_eq_some_iff.1 herror
    exact ⟨lexeme, hmem, hfault⟩

theorem pairwise_row_ofChars (start : Nat) (cs : List Char) :
    (Placed.row start (Lexeme.ofChars cs)).Pairwise (·.offset < ·.offset) := by
  induction cs using Lexeme.induction generalizing start with
  | nil => simp [Placed.row]
  | cons lexeme rest hfits ih =>
      rw [Lexeme.ofChars_of_fits hfits, Placed.row, List.pairwise_cons]
      refine ⟨fun p hp => ?_, ih _⟩
      exact Nat.lt_of_lt_of_le (Nat.lt_add_of_pos_right hfits.length_pos)
        (Placed.le_offset_of_mem_row hp)

/-- What lexemes show at their own places stands in the order of the text. -/
theorem pairwise_filterMap_row {β : Type} {view : Placed → Option β} {place : β → Nat}
    (hview : ∀ p b, view p = some b → place b = p.offset) (cs : List Char) :
    ((Placed.row 0 (Lexeme.ofChars cs)).filterMap view).Pairwise (place · < place ·) := by
  refine List.Pairwise.filterMap view ?_ (pairwise_row_ofChars 0 cs)
  intro p q hlt b hb b' hb'
  rw [hview p b hb, hview q b' hb']
  exact hlt

/-- The errors of a text stand at different places, in the order of the text. -/
theorem pairwise_scanErrors (cs : List Char) :
    (scanErrors cs).Pairwise (·.offset < ·.offset) :=
  pairwise_filterMap_row (fun _ _ herror => (Placed.error?_eq_some_iff.1 herror).2) cs

theorem pairwise_scanFound (cs : List Char) :
    (scanFound cs).Pairwise (·.offset < ·.offset) :=
  pairwise_filterMap_row (fun _ _ hfound => (Placed.located?_eq_some_iff.1 hfound).2) cs

theorem scanErrors_eq_nil_iff {cs : List Char} :
    scanErrors cs = [] ↔ ∀ offset fault, ¬ FaultAt cs offset fault := by
  rw [List.eq_nil_iff_forall_not_mem]
  constructor
  · intro h offset fault hfault
    exact h _ (faultAt_iff_mem_scanErrors.1 hfault)
  · intro h error hmem
    exact h error.offset error.fault (faultAt_iff_mem_scanErrors.2 hmem)

theorem head?_scanErrors_eq_some_iff {cs : List Char} {offset : Nat} {fault : ScanFault} :
    (scanErrors cs).head? = some ⟨fault, offset⟩ ↔
      FaultAt cs offset fault ∧ ∀ earlier < offset, ∀ other, ¬ FaultAt cs earlier other := by
  have hsorted := pairwise_scanErrors cs
  simp only [faultAt_iff_mem_scanErrors]
  generalize scanErrors cs = errors at hsorted
  cases hsorted with
  | nil => simp
  | @cons first errors hfirst _ =>
      constructor
      · intro h
        cases h
        refine ⟨List.mem_cons_self, fun earlier hearlier other hmem => ?_⟩
        rcases List.mem_cons.1 hmem with heq | hmem
        · cases heq
          exact Nat.lt_irrefl _ hearlier
        · exact absurd (hfirst _ hmem) (Nat.not_lt_of_gt hearlier)
      · rintro ⟨hmem, hleast⟩
        rcases List.mem_cons.1 hmem with heq | hmem
        · rw [heq, List.head?_cons]
        · exact absurd List.mem_cons_self (hleast first.offset (hfirst _ hmem) first.fault)

/-- A scan succeeds exactly on the texts that are faulty nowhere, and otherwise
reports the fault of the first faulty place. -/
theorem scan_reports_first_fault (text : String) :
    ((∃ tokens, scan text = .ok tokens) ↔
        ∀ offset fault, ¬ FaultAt text.toList offset fault) ∧
      ∀ offset fault, scan text = .error ⟨fault, offset⟩ ↔
        FaultAt text.toList offset fault ∧
          ∀ earlier < offset, ∀ other, ¬ FaultAt text.toList earlier other := by
  refine ⟨?_, fun offset fault => ?_⟩
  · rw [← scanErrors_eq_nil_iff]
    simp [scan_eq_ok_iff]
  · rw [scan_eq_error_iff_head?, head?_scanErrors_eq_some_iff]

end SExpr
