import SExpr.Proofs.Completion
import SExpr.Proofs.Concatenation

/-!
A text in parentheses. The two parentheses join nothing of the text between them, so it is
scanned as by itself, one character further on. Its tokens are taken as by themselves as
well, only within one more list that was open before: the list at the bottom of the
assembly is never finished unless one is closed too many. A single form that begins with
the first parenthesis ends with the last one only if it is the list of what stands between
them, since a form is built from no other tokens than its own.
-/

namespace SExpr

/-- The options under which one more list may be open. -/
def Options.deeper (options : Options) : Options := ⟨options.maxDepth.map (· + 1)⟩

theorem Options.forall_mem_deeper {options : Options} {P : Nat → Prop} :
    (∀ limit ∈ options.deeper.maxDepth, P limit) ↔ ∀ limit ∈ options.maxDepth, P (limit + 1) := by
  cases hmax : options.maxDepth with
  | none => simp [deeper, hmax]
  | some limit => simp [deeper, hmax]

/-! ### Scanning -/

theorem scanErrors_parens (cs : List Char) :
    scanErrors ('(' :: (cs ++ [')'])) = (scanErrors cs).map (ScanError.shift 1) := by
  have hbehind := Placed.errors_row_add 1 0 (Lexeme.ofChars cs)
  have hclose (place : Nat) :
      (Placed.row place [.closeParen]).filterMap Placed.error? = [] := rfl
  rw [scanErrors, Lexeme.ofChars_parens, Placed.row, List.filterMap_cons, Placed.row_append,
    List.filterMap_append, hclose, List.append_nil]
  exact hbehind

theorem scan_parens (text : String) :
    scan ("(" ++ text ++ ")") =
      ((scan text).map fun tokens => .openParen :: (tokens ++ [.closeParen])).mapError
        (ScanError.shift 1) := by
  have hchars : ("(" ++ text ++ ")").toList = '(' :: (text.toList ++ [')']) := by simp
  apply scan_eq_of_outlook
  · rw [hchars, scanErrors_parens]
  · rw [hchars, scanTokens_parens]

theorem scan_parens_of_ok {text : String} {tokens : List Token} (h : scan text = .ok tokens) :
    scan ("(" ++ text ++ ")") = .ok (.openParen :: (tokens ++ [.closeParen])) := by
  rw [scan_parens, h]
  rfl

theorem scan_parens_of_error {text : String} {error : ScanError} (h : scan text = .error error) :
    scan ("(" ++ text ++ ")") = .error (error.shift 1) := by
  rw [scan_parens, h]
  rfl

/-! ### Parsing -/

namespace Assembly

variable {options : Options} {index : Nat} {a next : Assembly}

/-- An assembly within one more unfinished list, which has these forms so far. -/
def within (a : Assembly) (around : List Node) : Assembly :=
  ⟨a.current, a.outer ++ [around], a.openLists + 1, by simp [a.openLists_eq]⟩

theorem finishList?_within (around : List Node) (h : a.finishList? = some next) :
    (a.within around).finishList? = some (next.within around) := by
  obtain ⟨current, _ | ⟨parent, outer⟩, openLists, hlists⟩ := a
  · simp [finishList?] at h
  · simp only [finishList?, Option.some.injEq] at h
    subst h
    simp [within, finishList?, hlists]

/-- What takes a token takes it within one more list, if that is allowed. -/
theorem step_within {token : Token} (around : List Node)
    (h : a.step options index token = .ok next) :
    (a.within around).step options.deeper (index + 1) token = .ok (next.within around) := by
  rcases step_eq_ok h with ⟨atom, rfl, rfl⟩ | ⟨rfl, hlimit, rfl⟩ | ⟨rfl, hfinish⟩
  · rfl
  · have hdeeper : ∀ limit ∈ options.deeper.maxDepth, a.openLists + 1 < limit :=
      Options.forall_mem_deeper.2 fun limit hmax => Nat.succ_lt_succ (hlimit limit hmax)
    exact step_openParen_of_lt options.deeper (index + 1) hdeeper
  · simp [step, finishList?_within around hfinish]

theorem Takes.within {tokens : List Token} (around : List Node)
    (h : Takes options index a tokens next) :
    Takes options.deeper (index + 1) (a.within around) tokens (next.within around) := by
  induction h with
  | nil => exact .nil
  | cons hstep _ ih => exact .cons (step_within around hstep) ih

/-- Behind an opening parenthesis, tokens are taken as they are without it. -/
theorem Takes.cons_openParen {tokens : List Token} (h : Takes options 0 .empty tokens a) :
    Takes options.deeper 0 .empty (.openParen :: tokens) (a.within []) := by
  have hdeeper : ∀ limit ∈ options.deeper.maxDepth, 0 < limit :=
    Options.forall_mem_deeper.2 fun limit _ => Nat.zero_lt_succ limit
  exact .cons (step_openParen_of_lt options.deeper 0 hdeeper) (h.within [])

end Assembly

/-- The tokens of one node that begin and end with a parenthesis are those of a list. -/
theorem Node.tokens_eq_parens_iff {n : Node} {tokens : List Token} :
    n.tokens = .openParen :: (tokens ++ [.closeParen]) ↔
      ∃ children, n = .list children ∧ Forms.tokens children = tokens := by
  cases n with
  | leaf atom => simp [Node.tokens]
  | list children => simp [Node.tokens]

namespace Tree

open Assembly (Takes)

variable {options : Options} {tokens : List Token}

theorem ofTokens_parens_eq_ok_iff {n : Node} :
    ofTokens (.openParen :: (tokens ++ [.closeParen])) options.deeper = .ok ⟨[n]⟩ ↔
      ∃ t, ofTokens tokens options = .ok t ∧ t.toNode = n := by
  have hsingle : (Tree.mk [n]).tokens = n.tokens := List.append_nil _
  have hdepth : (Tree.mk [n]).depth = n.depth := rfl
  rw [ofTokens_eq_ok_iff_depth, Options.forall_mem_deeper, hsingle, hdepth,
    Node.tokens_eq_parens_iff]
  constructor
  · rintro ⟨⟨children, rfl, hchildren⟩, hmost⟩
    refine ⟨⟨children⟩, ofTokens_eq_ok_iff_depth.2 ⟨hchildren, fun limit hlimit => ?_⟩, rfl⟩
    have hlist := hmost limit hlimit
    rw [Node.depth_list] at hlist
    exact Nat.le_of_succ_le_succ hlist
  · rintro ⟨t, ht, rfl⟩
    obtain ⟨htokens, hmost⟩ := ofTokens_eq_ok_iff_depth.1 ht
    refine ⟨⟨t.forms, rfl, htokens⟩, fun limit hlimit => ?_⟩
    rw [toNode, Node.depth_list]
    exact Nat.succ_le_succ (hmost limit hlimit)

theorem ofTokens_parens_of_nestingTooDeep {limit index : Nat}
    (h : ofTokens tokens options = .error (.nestingTooDeep limit index)) :
    ofTokens (.openParen :: (tokens ++ [.closeParen])) options.deeper =
      .error (.nestingTooDeep (limit + 1) (index + 1)) := by
  rcases ofTokens_eq_error_iff_takes.1 h with
    ⟨a, -, -, herror⟩ | ⟨taken, token, rest, a, rfl, htakes, hrefuse⟩
  · cases herror
  rcases Assembly.step_eq_error hrefuse with ⟨-, -, herror⟩ | ⟨_, hlimit, rfl, hle, herror⟩
  · cases herror
  cases herror
  have hdeeper : options.deeper.maxDepth = some (limit + 1) := by
    rw [Options.deeper, hlimit]
    rfl
  refine ofTokens_eq_error_iff_takes.2 (.inr ⟨.openParen :: taken, .openParen,
    rest ++ [.closeParen], a.within [], by simp, htakes.cons_openParen, ?_⟩)
  exact Assembly.step_openParen_of_le _ hdeeper (Nat.succ_le_succ hle)

/-- The closing parenthesis finishes one list, and the first one has opened one more. -/
theorem ofTokens_parens_of_unclosedOpen {n : Nat}
    (h : ofTokens tokens options = .error (.unclosedOpen n)) :
    ofTokens (.openParen :: (tokens ++ [.closeParen])) options.deeper =
      .error (.unclosedOpen n) := by
  obtain ⟨a, htakes, hopen, rfl⟩ := ofTokens_eq_unclosedOpen_iff.1 h
  have hwithin : 0 < (a.within []).openLists := Nat.zero_lt_succ a.openLists
  obtain ⟨next, hstep, hlists⟩ := Assembly.exists_step_closeParen options.deeper
    (0 + (Token.openParen :: tokens).length) hwithin
  have hsame : a.openLists = next.openLists := Nat.succ.inj hlists
  refine ofTokens_eq_unclosedOpen_iff.2 ⟨next, ?_, hsame ▸ hopen, hsame⟩
  exact htakes.cons_openParen.append (.single hstep)

/-! ### Reading -/

theorem read_parens_eq_ok_iff {text : String} {n : Node} :
    read ("(" ++ text ++ ")") options.deeper = .ok ⟨[n]⟩ ↔
      ∃ t, read text options = .ok t ∧ t.toNode = n := by
  constructor
  · intro h
    obtain ⟨tokens, hscan, hparse⟩ := read_eq_ok_iff.1 h
    cases htext : scan text with
    | error error =>
        rw [scan_parens_of_error htext] at hscan
        cases hscan
    | ok inner =>
        rw [scan_parens_of_ok htext] at hscan
        cases hscan
        obtain ⟨t, ht, hnode⟩ := ofTokens_parens_eq_ok_iff.1 hparse
        exact ⟨t, read_eq_ok_iff.2 ⟨inner, htext, ht⟩, hnode⟩
  · rintro ⟨t, hread, hnode⟩
    obtain ⟨tokens, hscan, hparse⟩ := read_eq_ok_iff.1 hread
    exact read_eq_ok_iff.2
      ⟨_, scan_parens_of_ok hscan, ofTokens_parens_eq_ok_iff.2 ⟨t, hparse, hnode⟩⟩

/-- What parentheses make of the error of a parse they make of the error of a read. -/
theorem read_parens_of_parse_error {text : String} {error error' : ParseError}
    (h : read text options = .error (.parse error))
    (hparens : ∀ {tokens}, ofTokens tokens options = .error error →
      ofTokens (.openParen :: (tokens ++ [.closeParen])) options.deeper = .error error') :
    read ("(" ++ text ++ ")") options.deeper = .error (.parse error') := by
  rcases read_eq_error_iff.1 h with ⟨fault, -, herror⟩ | ⟨tokens, refusal, hscan, hparse, herror⟩
  · cases herror
  · cases herror
    exact read_eq_error_iff.2 (.inr ⟨_, error', scan_parens_of_ok hscan, hparens hparse, rfl⟩)

theorem read_parens_of_scan_error {text : String} {error : ScanError}
    (h : read text options = .error (.scan error)) :
    read ("(" ++ text ++ ")") options.deeper = .error (.scan (error.shift 1)) := by
  rcases read_eq_error_iff.1 h with ⟨fault, hscan, herror⟩ | ⟨tokens, refusal, -, -, herror⟩
  · cases herror
    exact read_eq_error_iff.2 (.inl ⟨_, scan_parens_of_error hscan, rfl⟩)
  · cases herror

/-- A text in parentheses is read as one form exactly if the text is read, and the form is
the list of its forms. Its scan errors stand one character further on, its lists are one
list deeper, and as many of them are left open; and with a parenthesis that closes nothing
by itself the whole is never one form, since the first parenthesis is closed there. -/
theorem read_parens (text : String) (options : Options) :
    (∀ n, read ("(" ++ text ++ ")") options.deeper = .ok ⟨[n]⟩ ↔
        ∃ t, read text options = .ok t ∧ t.toNode = n) ∧
      (∀ fault offset, read text options = .error (.scan ⟨fault, offset⟩) →
        read ("(" ++ text ++ ")") options.deeper = .error (.scan ⟨fault, offset + 1⟩)) ∧
      (∀ limit index, read text options = .error (.parse (.nestingTooDeep limit index)) →
        read ("(" ++ text ++ ")") options.deeper =
          .error (.parse (.nestingTooDeep (limit + 1) (index + 1)))) ∧
      (∀ n, read text options = .error (.parse (.unclosedOpen n)) →
        read ("(" ++ text ++ ")") options.deeper = .error (.parse (.unclosedOpen n))) ∧
      ∀ index, read text options = .error (.parse (.unexpectedClose index)) →
        ∀ t, read ("(" ++ text ++ ")") options.deeper = .ok t → t.size ≠ 1 := by
  refine ⟨fun n => read_parens_eq_ok_iff, fun fault offset h => ?_,
    fun limit index h => read_parens_of_parse_error h ofTokens_parens_of_nestingTooDeep,
    fun n h => read_parens_of_parse_error h ofTokens_parens_of_unclosedOpen, ?_⟩
  · rw [read_parens_of_scan_error h, ScanError.shift, Nat.add_comm]
  · intro index h t hread hsize
    obtain ⟨n, hforms⟩ := List.length_eq_one_iff.1 hsize
    obtain rfl : t = ⟨[n]⟩ := congrArg Tree.mk hforms
    obtain ⟨inner, hinner, -⟩ := read_parens_eq_ok_iff.1 hread
    cases h.symm.trans hinner

/-- The parenthesis that closes nothing by itself closes the first one, so that there are
two forms; and a run and an operator stand before the last parenthesis. -/
theorem read_parens_kinds :
    (∃ t, read ("(" ++ "a)(b" ++ ")") = .ok t ∧ t.size ≠ 1) ∧
      read ("(" ++ "(a 12" ++ ")") = .error (.parse (.unclosedOpen 1)) ∧
      read ("(" ++ "a+" ++ ")") = .error (.scan ⟨.unterminated .plus, 2⟩) ∧
      read ("(" ++ "a(b)" ++ ")") ⟨some 1⟩ = .error (.parse (.nestingTooDeep 1 2)) := by
  have hclose : read "a)(b" = .error (.parse (.unexpectedClose 1)) := by decide +kernel
  have hopen : read "(a 12" = .error (.parse (.unclosedOpen 1)) := by decide +kernel
  have hop : read "a+" = .error (.scan ⟨.unterminated .plus, 1⟩) := by decide +kernel
  have hdeep : read "a(b)" ⟨some 0⟩ = .error (.parse (.nestingTooDeep 0 1)) := by decide +kernel
  have hforms : read "(a)(b)" = .ok ⟨[.list [.symbol "a"], .list [.symbol "b"]]⟩ := by
    decide +kernel
  exact ⟨⟨_, hforms, (read_parens "a)(b" {}).2.2.2.2 1 hclose _ hforms⟩,
    (read_parens "(a 12" {}).2.2.2.1 1 hopen, (read_parens "a+" {}).2.1 _ 1 hop,
    (read_parens "a(b)" ⟨some 0⟩).2.2.1 0 1 hdeep⟩

end Tree

end SExpr
