import SExpr.Proofs.Language
import SExpr.Proofs.Places

/-!
What a scan lists. A text that scans without an error has a token at each place where a
parenthesis or an operator stands or a maximal run of letters or of digits begins, and at no
other place; the scan lists these tokens in the order of their places. So a run is never
cut, two runs side by side are two tokens only if they are of different classes, and runs
of one class are apart.
-/

namespace SExpr

namespace MaximalRun

variable {p : Char → Bool} {cs run run' : List Char} {offset offset' : Nat}

/-- A run begins wherever a character of the class has none of the class before it. -/
theorem exists_of_start {c : Char} (hc : cs[offset]? = some c) (hclass : p c)
    (hbefore : ∀ place, place + 1 = offset → ∀ b ∈ cs[place]?, ¬ p b) :
    ∃ run, MaximalRun p cs offset run := by
  have hdrop : cs.drop offset = c :: cs.drop (offset + 1) := by
    obtain ⟨hlt, rfl⟩ := List.getElem?_eq_some_iff.1 hc
    exact List.drop_eq_getElem_cons hlt
  obtain ⟨hrun, hstop⟩ := span_class p (cs.drop offset)
  have hbehind := getElem?_behind (List.takeWhile_append_dropWhile (p := p) (l := cs.drop offset))
  refine ⟨(cs.drop offset).takeWhile p, ?_, hrun, List.takeWhile_prefix p, hbefore, ?_⟩
  · simp [hdrop, hclass]
  · rwa [hbehind]

/-- The class holds the character at each place of a run. -/
theorem inClass_at (h : MaximalRun p cs offset run) {place : Nat} {c : Char}
    (hle : offset ≤ place) (hlt : place < offset + run.length) (hc : cs[place]? = some c) : p c := by
  obtain ⟨further, rfl⟩ := Nat.exists_eq_add_of_le hle
  obtain ⟨rest, hrest⟩ := h.stands
  rw [← List.getElem?_drop, ← hrest, List.getElem?_append_left (by omega)] at hc
  exact h.inClass c (List.mem_of_getElem? hc)

/-- Between two runs of one class stands a character that the class does not hold. -/
theorem exists_between (h : MaximalRun p cs offset run) (h' : MaximalRun p cs offset' run')
    (hlt : offset < offset') :
    ∃ place c, offset + run.length ≤ place ∧ place < offset' ∧ cs[place]? = some c ∧ ¬ p c := by
  obtain ⟨place, rfl⟩ := Nat.exists_eq_add_of_lt hlt
  obtain ⟨first, hfirst, -⟩ := h'.exists_head
  have hplace : offset + place < cs.length := by
    have := (List.getElem?_eq_some_iff.1 hfirst).1
    omega
  have hc : cs[offset + place]? = some cs[offset + place] := List.getElem?_eq_getElem hplace
  have hout := h'.before (offset + place) rfl _ hc
  refine ⟨offset + place, _, ?_, Nat.lt_succ_self _, hc, hout⟩
  by_contra hin
  exact hout (h.inClass_at (Nat.le_add_right _ _) (Nat.not_le.1 hin) hc)

end MaximalRun

/-- The tokens of a text in their order: one for each parenthesis, each operator and each
maximal run, and no others. -/
structure Inventory (cs : List Char) (found : List Located) : Prop where
  ordered : found.Pairwise (·.offset < ·.offset)
  openParen_iff : ∀ offset, ⟨offset, .openParen⟩ ∈ found ↔ cs[offset]? = some '('
  closeParen_iff : ∀ offset, ⟨offset, .closeParen⟩ ∈ found ↔ cs[offset]? = some ')'
  operator_iff : ∀ offset op,
    ⟨offset, .atom (.operator op)⟩ ∈ found ↔ cs[offset]? = some op.toChar
  symbol_iff : ∀ offset name,
    ⟨offset, .atom (.symbol name)⟩ ∈ found ↔ MaximalRun Char.isAlpha cs offset name.toList
  integer_iff : ∀ offset value, ⟨offset, .atom (.integer value)⟩ ∈ found ↔
    ∃ run, MaximalRun Char.isDigit cs offset run ∧ Text.value run = value.toNat
  /-- No run of digits is left out for its value. -/
  integer_of_run : ∀ offset run, MaximalRun Char.isDigit cs offset run →
    ∃ value, ⟨offset, .atom (.integer value)⟩ ∈ found ∧ Text.value run = value.toNat

theorem inventory_scanFound {cs : List Char} (h : Lexical cs) : Inventory cs (scanFound cs) where
  ordered := pairwise_scanFound cs
  openParen_iff offset := by
    rw [mem_scanFound_iff]
    constructor
    · rintro ⟨_, htoken⟩
      cases htoken with
      | openParen hc => exact hc
    · exact fun hc => ⟨_, .openParen hc⟩
  closeParen_iff offset := by
    rw [mem_scanFound_iff]
    constructor
    · rintro ⟨_, htoken⟩
      cases htoken with
      | closeParen hc => exact hc
    · exact fun hc => ⟨_, .closeParen hc⟩
  operator_iff offset op := by
    rw [mem_scanFound_iff]
    constructor
    · rintro ⟨_, htoken⟩
      cases htoken with
      | operator hc _ => exact hc
    · exact fun hc => ⟨_, .operator hc (h.terminated offset _ hc (by simp [isOperator]))⟩
  symbol_iff offset name := by
    rw [mem_scanFound_iff]
    constructor
    · rintro ⟨_, htoken⟩
      cases htoken with
      | symbol hrun => rwa [String.toList_ofList]
    · intro hrun
      have htoken := TokenAt.symbol hrun
      rw [String.ofList_toList] at htoken
      exact ⟨_, htoken⟩
  integer_iff offset value := by
    rw [mem_scanFound_iff]
    constructor
    · rintro ⟨run, htoken⟩
      cases htoken with
      | integer hrun hvalue => exact ⟨run, hrun, hvalue⟩
    · rintro ⟨run, hrun, hvalue⟩
      exact ⟨run, .integer hrun hvalue⟩
  integer_of_run offset run hrun := by
    have hvalue : Text.value run = (UInt64.ofNatLT _ (h.inRange offset run hrun)).toNat := by simp
    exact ⟨_, mem_scanFound_iff.2 ⟨run, .integer hrun hvalue⟩, hvalue⟩

namespace Inventory

variable {cs : List Char} {found : List Located}

theorem symbol_letters (h : Inventory cs found) {offset : Nat} {name : String}
    (hmem : ⟨offset, .atom (.symbol name)⟩ ∈ found) :
    name ≠ "" ∧ ∀ c ∈ name.toList, c.isAlpha := by
  have hrun := (h.symbol_iff offset name).1 hmem
  refine ⟨?_, hrun.inClass⟩
  rintro rfl
  exact hrun.ne_nil rfl

/-- Where a letter follows a digit or a digit a letter, a token begins with the second. -/
theorem exists_of_split (h : Inventory cs found) {place : Nat} {c d : Char}
    (hc : cs[place]? = some c) (hd : cs[place + 1]? = some d)
    (hsplit : (c.isDigit ∧ d.isAlpha) ∨ (c.isAlpha ∧ d.isDigit)) :
    ∃ token, ⟨place + 1, token⟩ ∈ found := by
  have hbefore {p : Char → Bool} (hp : ¬ p c) :
      ∀ earlier, earlier + 1 = place + 1 → ∀ b ∈ cs[earlier]?, ¬ p b := by
    intro earlier hearlier b hb
    obtain rfl := Nat.succ.inj hearlier
    cases hc.symm.trans hb
    exact hp
  rcases hsplit with ⟨hdigit, halpha⟩ | ⟨halpha, hdigit⟩
  · obtain ⟨run, hrun⟩ :=
      MaximalRun.exists_of_start hd halpha (hbefore (not_isAlpha_of_isDigit hdigit))
    exact ⟨.atom (.symbol (String.ofList run)), (h.symbol_iff _ _).2 (by simpa using hrun)⟩
  · obtain ⟨run, hrun⟩ := MaximalRun.exists_of_start hd hdigit
      (hbefore fun hdigit' => not_isAlpha_of_isDigit hdigit' halpha)
    obtain ⟨value, hmem, -⟩ := h.integer_of_run _ run hrun
    exact ⟨_, hmem⟩

end Inventory

/-- A scan that succeeds lists the maximal runs of letters and of digits, the operators and
the parentheses of the text in the order of their places. Its symbols are made of letters,
runs of different classes need nothing between them, and runs of one class have a character
of no such run between them. -/
theorem scan_lists_runs_in_order {text : String} {tokens : List Token}
    (h : scan text = .ok tokens) :
    ∃ found : List Located, found.map Located.token = tokens ∧ Inventory text.toList found ∧
      (∀ name, .atom (.symbol name) ∈ tokens → name ≠ "" ∧ ∀ c ∈ name.toList, c.isAlpha) ∧
      (∀ place c d, text.toList[place]? = some c → text.toList[place + 1]? = some d →
        (c.isDigit ∧ d.isAlpha) ∨ (c.isAlpha ∧ d.isDigit) →
          ∃ token, ⟨place + 1, token⟩ ∈ found) ∧
      (∀ offset offset' name name', ⟨offset, .atom (.symbol name)⟩ ∈ found →
        ⟨offset', .atom (.symbol name')⟩ ∈ found → offset < offset' →
          ∃ place c, offset + name.length ≤ place ∧ place < offset' ∧
            text.toList[place]? = some c ∧ ¬ c.isAlpha) ∧
      ∀ offset offset' value value', ⟨offset, .atom (.integer value)⟩ ∈ found →
        ⟨offset', .atom (.integer value')⟩ ∈ found → offset < offset' →
          ∃ place c, offset < place ∧ place < offset' ∧
            text.toList[place]? = some c ∧ ¬ c.isDigit := by
  obtain ⟨hlexical, rfl⟩ := scan_eq_ok_iff_lexical.1 h
  have hinventory := inventory_scanFound hlexical
  refine ⟨scanFound text.toList, map_token_scanFound _, hinventory, ?_, ?_, ?_, ?_⟩
  · intro name hmem
    rw [← map_token_scanFound, List.mem_map] at hmem
    obtain ⟨⟨offset, token⟩, hmem, rfl⟩ := hmem
    exact hinventory.symbol_letters hmem
  · exact fun place c d hc hd hsplit => hinventory.exists_of_split hc hd hsplit
  · intro offset offset' name name' hmem hmem' hlt
    have hrun := (hinventory.symbol_iff offset name).1 hmem
    have hrun' := (hinventory.symbol_iff offset' name').1 hmem'
    rw [← String.length_toList]
    exact hrun.exists_between hrun' hlt
  · intro offset offset' value value' hmem hmem' hlt
    obtain ⟨run, hrun, -⟩ := (hinventory.integer_iff offset value).1 hmem
    obtain ⟨run', hrun', -⟩ := (hinventory.integer_iff offset' value').1 hmem'
    obtain ⟨place, c, hle, hplace⟩ := hrun.exists_between hrun' hlt
    have hpos := List.length_pos_iff.2 hrun.ne_nil
    exact ⟨place, c, by omega, hplace⟩

/-- Runs of both classes side by side, an operator and two runs of letters. -/
theorem scan_lists_runs_in_order_mixed :
    scan "12ab(+ cd e)" = .ok [.atom (.integer 12), .atom (.symbol "ab"), .openParen,
        .atom (.operator .plus), .atom (.symbol "cd"), .atom (.symbol "e"), .closeParen] ∧
      ∃ found : List Located, Inventory "12ab(+ cd e)".toList found ∧
        found.map Located.token = [.atom (.integer 12), .atom (.symbol "ab"), .openParen,
          .atom (.operator .plus), .atom (.symbol "cd"), .atom (.symbol "e"), .closeParen] := by
  have hscan : scan "12ab(+ cd e)" = .ok [.atom (.integer 12), .atom (.symbol "ab"), .openParen,
      .atom (.operator .plus), .atom (.symbol "cd"), .atom (.symbol "e"), .closeParen] := by
    decide +kernel
  obtain ⟨found, htokens, hinventory, -⟩ := scan_lists_runs_in_order hscan
  exact ⟨hscan, found, hinventory, htokens⟩

end SExpr
