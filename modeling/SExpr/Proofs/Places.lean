import SExpr.Proofs.Runs

/-!
The tokens of a text at their places. `TokenAt` says by the characters around a place
which token stands there and what part of the text it takes up: a parenthesis, an
operator with its one space, or a run that cannot be made longer. A scan finds all of
these tokens and no others, and where no token stands there are spaces.
-/

namespace SExpr

/-- A token stands at a place of a text, and takes up this part of it. -/
inductive TokenAt (cs : List Char) (offset : Nat) : Token → List Char → Prop where
  | openParen (hc : cs[offset]? = some '(') : TokenAt cs offset .openParen ['(']
  | closeParen (hc : cs[offset]? = some ')') : TokenAt cs offset .closeParen [')']
  /-- A maximal run of letters. -/
  | symbol {run : List Char} (hrun : MaximalRun Char.isAlpha cs offset run) :
      TokenAt cs offset (.atom (.symbol (String.ofList run))) run
  /-- A maximal run of digits, by its value. -/
  | integer {run : List Char} {value : UInt64} (hrun : MaximalRun Char.isDigit cs offset run)
      (hvalue : Text.value run = value.toNat) : TokenAt cs offset (.atom (.integer value)) run
  /-- An operator and the space that terminates it. -/
  | operator {op : Operator} (hc : cs[offset]? = some op.toChar)
      (hspace : cs[offset + 1]? = some ' ') :
      TokenAt cs offset (.atom (.operator op)) [op.toChar, ' ']

/-! ### The characters of a lexeme -/

namespace Lexeme.Fits

variable {lexeme : Lexeme} {rest : List Char}

theorem eq_openParen (h : lexeme.Fits rest) (hmem : '(' ∈ lexeme.chars) :
    lexeme = openParen := by
  by_contra hopen
  by_cases hclose : lexeme = closeParen
  · subst hclose
    simp [chars] at hmem
  · exact (h.no_paren hopen hclose _ hmem).1 rfl

theorem eq_closeParen (h : lexeme.Fits rest) (hmem : ')' ∈ lexeme.chars) :
    lexeme = closeParen := by
  by_contra hclose
  by_cases hopen : lexeme = openParen
  · subst hopen
    simp [chars] at hmem
  · exact (h.no_paren hopen hclose _ hmem).2 rfl

theorem eq_operator {op : Operator} (h : lexeme.Fits rest) (hmem : op.toChar ∈ lexeme.chars) :
    lexeme = operator op ∨ lexeme = bareOperator op := by
  obtain ⟨hspace, hopen, hclose, hdigit, halpha⟩ := op.toChar_class
  cases lexeme with
  | blank => exact absurd (List.mem_singleton.1 hmem) hspace
  | openParen => exact absurd (List.mem_singleton.1 hmem) hopen
  | closeParen => exact absurd (List.mem_singleton.1 hmem) hclose
  | letters run =>
      have hrun : op.toChar.isAlpha := h.2.1 _ hmem
      simp [halpha] at hrun
  | digits run =>
      have hrun : op.toChar.isDigit := h.2.1 _ hmem
      simp [hdigit] at hrun
  | operator op' =>
      rcases List.mem_cons.1 hmem with heq | hmem
      · rw [Operator.toChar_injective heq]
        exact .inl rfl
      · exact absurd (List.mem_singleton.1 hmem) hspace
  | bareOperator op' =>
      rw [Operator.toChar_injective (List.mem_singleton.1 hmem)]
      exact .inr rfl
  | foreign c =>
      obtain rfl := List.mem_singleton.1 hmem
      simp [Fits, InAlphabet] at h

end Lexeme.Fits

namespace TokenAt

variable {lexeme : Lexeme} {rest : List Char} {offset : Nat} {token : Token} {part : List Char}

theorem not_nil : ¬ TokenAt [] offset token part := by
  rintro (hc | hc | hrun | hrun | hc)
  · simp at hc
  · simp at hc
  · obtain ⟨c, hc, -⟩ := hrun.exists_head
    simp at hc
  · obtain ⟨c, hc, -⟩ := hrun.exists_head
    simp at hc
  · simp at hc

/-- Behind a lexeme a text has the tokens that it would have without the lexeme. -/
theorem behind_iff (h : lexeme.Fits rest) :
    TokenAt (lexeme.chars ++ rest) (lexeme.chars.length + offset) token part ↔
      TokenAt rest offset token part := by
  have hplace (place : Nat) :
      (lexeme.chars ++ rest)[lexeme.chars.length + place]? = rest[place]? := by
    simp [List.getElem?_append_right]
  constructor
  · rintro (hc | hc | hrun | ⟨hrun, hvalue⟩ | ⟨hc, hspace⟩)
    · exact .openParen (hplace _ ▸ hc)
    · exact .closeParen (hplace _ ▸ hc)
    · exact .symbol ((runClass_letters?.maximalRun_behind_iff h).1 hrun)
    · exact .integer ((runClass_digits?.maximalRun_behind_iff h).1 hrun) hvalue
    · rw [Nat.add_assoc, hplace] at hspace
      exact .operator (hplace _ ▸ hc) hspace
  · rintro (hc | hc | hrun | ⟨hrun, hvalue⟩ | ⟨hc, hspace⟩)
    · exact .openParen ((hplace _).trans hc)
    · exact .closeParen ((hplace _).trans hc)
    · exact .symbol ((runClass_letters?.maximalRun_behind_iff h).2 hrun)
    · exact .integer ((runClass_digits?.maximalRun_behind_iff h).2 hrun) hvalue
    · rw [← hplace, ← Nat.add_assoc] at hspace
      exact .operator ((hplace _).trans hc) hspace

/-- Inside a lexeme a token can only stand at the first character, and does exactly if a
scan keeps it of the lexeme. -/
theorem front_iff (h : lexeme.Fits rest) (hoffset : offset < lexeme.chars.length) :
    TokenAt (lexeme.chars ++ rest) offset token part ↔
      offset = 0 ∧ lexeme.Keeps token ∧ lexeme.chars = part := by
  have hmem {c : Char} (hc : (lexeme.chars ++ rest)[offset]? = some c) : c ∈ lexeme.chars := by
    rw [List.getElem?_append_left hoffset] at hc
    exact List.mem_of_getElem? hc
  constructor
  · rintro (hc | hc | hrun | ⟨hrun, hvalue⟩ | @⟨op, hc, hspace⟩)
    · obtain rfl := h.eq_openParen (hmem hc)
      exact ⟨Nat.lt_one_iff.1 hoffset, .openParen, rfl⟩
    · obtain rfl := h.eq_closeParen (hmem hc)
      exact ⟨Nat.lt_one_iff.1 hoffset, .closeParen, rfl⟩
    · obtain ⟨hzero, hletters⟩ := (runClass_letters?.maximalRun_front_iff h hoffset).1 hrun
      obtain rfl := Lexeme.letters?_eq_some_iff.1 hletters
      exact ⟨hzero, .letters _, rfl⟩
    · obtain ⟨hzero, hdigits⟩ := (runClass_digits?.maximalRun_front_iff h hoffset).1 hrun
      obtain rfl := Lexeme.digits?_eq_some_iff.1 hdigits
      exact ⟨hzero, .digits (Word.ofNat?_eq_some_iff.2 hvalue), rfl⟩
    · rcases h.eq_operator (hmem hc) with rfl | rfl
      · have hcases : offset = 0 ∨ offset = 1 := by
          have : offset < 2 := hoffset
          omega
        rcases hcases with rfl | rfl
        · exact ⟨rfl, .operator op, rfl⟩
        -- the second character is the space
        · have heq : op.toChar = ' ' := by simpa [Lexeme.chars, eq_comm] using hc
          exact absurd heq op.toChar_class.1
      · obtain rfl : offset = 0 := Nat.lt_one_iff.1 hoffset
        rw [Nat.zero_add, Lexeme.chars, List.singleton_append, List.getElem?_cons_succ,
          ← List.head?_eq_getElem?] at hspace
        exact absurd hspace h
  · rintro ⟨rfl, hkeeps, rfl⟩
    cases hkeeps with
    | openParen => exact .openParen rfl
    | closeParen => exact .closeParen rfl
    | letters run => exact .symbol ((runClass_letters?.maximalRun_front_iff h hoffset).2 ⟨rfl, rfl⟩)
    | digits hword =>
        exact .integer ((runClass_digits?.maximalRun_front_iff h hoffset).2 ⟨rfl, rfl⟩)
          (Word.ofNat?_eq_some_iff.1 hword)
    | operator op => exact .operator rfl rfl

end TokenAt

/-! ### The tokens of a scan -/

/-- The token of a lexeme and the part of the text that it takes up. -/
def Lexeme.piece? (lexeme : Lexeme) : Option (Token × List Char) :=
  lexeme.kept?.map (·, lexeme.chars)

theorem Lexeme.piece?_eq_some_iff {lexeme : Lexeme} {token : Token} {part : List Char} :
    lexeme.piece? = some (token, part) ↔ lexeme.Keeps token ∧ lexeme.chars = part := by
  rw [piece?, Option.map_eq_some_iff]
  constructor
  · rintro ⟨kept, hkept, heq⟩
    cases heq
    exact ⟨keeps_of_kept? hkept, rfl⟩
  · rintro ⟨hkeeps, rfl⟩
    exact ⟨token, hkeeps.kept?, rfl⟩

/-- The tokens of a text are those that a scan keeps of its lexemes. -/
theorem tokenAt_iff_mem_row {cs : List Char} {offset : Nat} {token : Token} {part : List Char} :
    TokenAt cs offset token part ↔ ∃ lexeme : Lexeme,
      ⟨offset, lexeme⟩ ∈ Placed.row 0 (Lexeme.ofChars cs) ∧
        lexeme.Keeps token ∧ lexeme.chars = part := by
  have hrow := @Placed.exists_mem_row_iff _ Lexeme.piece?
    (fun cs offset piece => TokenAt cs offset piece.1 piece.2) (fun _ _ => TokenAt.not_nil)
    (fun lexeme rest offset piece h hoffset => by
      rw [TokenAt.front_iff h hoffset, ← Lexeme.piece?_eq_some_iff])
    (fun _ _ _ _ h => TokenAt.behind_iff h) cs 0 offset (token, part)
  rw [← hrow, Nat.zero_add]
  simp only [Lexeme.piece?_eq_some_iff]

/-- Every character of a text is part of a lexeme. -/
theorem Placed.exists_mem_row_of_getElem? {cs : List Char} (start : Nat) {place : Nat} {c : Char}
    (h : cs[place]? = some c) :
    ∃ p ∈ row start (Lexeme.ofChars cs), c ∈ p.lexeme.chars ∧ p.offset ≤ start + place ∧
      start + place < p.offset + p.lexeme.chars.length := by
  induction cs using Lexeme.induction generalizing start place with
  | nil => simp at h
  | cons lexeme rest hfits ih =>
      rw [Lexeme.ofChars_of_fits hfits, row]
      by_cases hplace : place < lexeme.chars.length
      · rw [List.getElem?_append_left hplace] at h
        exact ⟨⟨start, lexeme⟩, List.mem_cons_self, List.mem_of_getElem? h,
          Nat.le_add_right _ _, Nat.add_lt_add_left hplace start⟩
      · obtain ⟨further, rfl⟩ := Nat.exists_eq_add_of_le (Nat.le_of_not_lt hplace)
        rw [List.getElem?_append_right (Nat.le_add_right _ _), Nat.add_sub_cancel_left] at h
        obtain ⟨p, hp, hc, hle, hlt⟩ := ih (start + lexeme.chars.length) h
        refine ⟨p, List.mem_cons_of_mem _ hp, hc, ?_, ?_⟩
        · omega
        · omega

theorem mem_scanFound_iff {cs : List Char} {offset : Nat} {token : Token} :
    ⟨offset, token⟩ ∈ scanFound cs ↔ ∃ part, TokenAt cs offset token part := by
  simp only [tokenAt_iff_mem_row]
  rw [scanFound, List.mem_filterMap]
  constructor
  · rintro ⟨⟨place, lexeme⟩, hmem, hlocated⟩
    obtain ⟨hkept, rfl⟩ := Placed.located?_eq_some_iff.1 hlocated
    exact ⟨lexeme.chars, lexeme, hmem, Lexeme.keeps_of_kept? hkept, rfl⟩
  · rintro ⟨part, lexeme, hmem, hkeeps, -⟩
    exact ⟨⟨offset, lexeme⟩, hmem, Placed.located?_eq_some_iff.2 ⟨hkeeps.kept?, rfl⟩⟩

/-- The tokens of a text in their order, all of them, and nothing but spaces besides. -/
structure Tiling (cs : List Char) (found : List Located) : Prop where
  ordered : found.Pairwise (·.offset < ·.offset)
  mem_iff : ∀ offset token, ⟨offset, token⟩ ∈ found ↔ ∃ part, TokenAt cs offset token part
  /-- A character that is no space is part of a token. -/
  covers : ∀ place c, cs[place]? = some c → c ≠ ' ' → ∃ offset token part,
    TokenAt cs offset token part ∧ offset ≤ place ∧ place < offset + part.length

/-- What a scan keeps of a text without faults is all of the text but spaces. -/
theorem tiling_scanFound {cs : List Char}
    (h : ∀ lexeme ∈ Lexeme.ofChars cs, lexeme.fault? = none) : Tiling cs (scanFound cs) := by
  refine ⟨pairwise_scanFound cs, fun _ _ => mem_scanFound_iff, fun place c hc hspace => ?_⟩
  obtain ⟨⟨offset, lexeme⟩, hmem, hpart, hle, hlt⟩ :=
    Placed.exists_mem_row_of_getElem? 0 hc
  have hlexeme : lexeme ∈ Lexeme.ofChars cs := by
    rw [← Placed.map_lexeme_row 0 (Lexeme.ofChars cs)]
    exact List.mem_map.2 ⟨_, hmem, rfl⟩
  rcases Lexeme.eq_blank_or_keeps (h lexeme hlexeme) with rfl | ⟨token, hkeeps⟩
  · exact absurd (List.mem_singleton.1 hpart) hspace
  · rw [Nat.zero_add] at hle hlt
    exact ⟨offset, token, lexeme.chars,
      tokenAt_iff_mem_row.2 ⟨lexeme, hmem, hkeeps, rfl⟩, hle, hlt⟩

end SExpr
