import SExpr.Proofs.Assembling

/-!
Where a parse is refused. `RefusedAt` says by the tokens alone that one of them
cannot be taken: it closes a list at height zero, or opens one at the height of
the limit. As long as none has been refused, an assembly holds as many open
lists as the height of the tokens it has taken, and never more than the limit;
so it is refused at the first such place, and only the lists left open behind the
last token remain to be reported.
-/

namespace SExpr

/-- What is wrong with the token at an index, as the tokens before it have it. -/
inductive RefusedAt (options : Options) (tokens : List Token) (index : Nat) :
    ParseError → Prop where
  /-- A closing parenthesis at height zero. -/
  | unexpectedClose (htoken : tokens[index]? = some .closeParen)
      (hheight : height (tokens.take index) = 0) :
      RefusedAt options tokens index (.unexpectedClose index)
  /-- An opening parenthesis at the height of the limit. -/
  | nestingTooDeep {limit : Nat} (hlimit : options.maxDepth = some limit)
      (htoken : tokens[index]? = some .openParen)
      (hheight : height (tokens.take index) = limit) :
      RefusedAt options tokens index (.nestingTooDeep limit index)

/-- The first token that is refused, and why. -/
structure FirstRefusal (options : Options) (tokens : List Token) (index : Nat)
    (error : ParseError) : Prop where
  refused : RefusedAt options tokens index error
  first : ∀ earlier < index, ∀ other, ¬ RefusedAt options tokens earlier other

namespace RefusedAt

variable {options : Options} {tokens : List Token} {index : Nat} {error error' : ParseError}

theorem unique (h : RefusedAt options tokens index error)
    (h' : RefusedAt options tokens index error') : error = error' := by
  cases h with
  | unexpectedClose htoken _ =>
      cases h' with
      | unexpectedClose _ _ => rfl
      | nestingTooDeep _ htoken' _ => cases htoken.symm.trans htoken'
  | nestingTooDeep hlimit htoken _ =>
      cases h' with
      | unexpectedClose htoken' _ => cases htoken.symm.trans htoken'
      | nestingTooDeep hlimit' _ _ =>
          cases hlimit.symm.trans hlimit'
          rfl

theorem lt_length (h : RefusedAt options tokens index error) : index < tokens.length := by
  cases h with
  | unexpectedClose htoken _ => exact (List.getElem?_eq_some_iff.1 htoken).1
  | nestingTooDeep _ htoken _ => exact (List.getElem?_eq_some_iff.1 htoken).1

/-- The tokens up to a refused one go below zero, or above the limit. -/
theorem height_take_succ (h : RefusedAt options tokens index error) :
    height (tokens.take (index + 1)) = -1 ∨
      ∃ limit ∈ options.maxDepth, height (tokens.take (index + 1)) = limit + 1 := by
  cases h with
  | unexpectedClose htoken hheight =>
      left
      rw [List.take_add_one, htoken, height_append, hheight]
      rfl
  | nestingTooDeep hlimit htoken hheight =>
      refine .inr ⟨_, hlimit, ?_⟩
      rw [List.take_add_one, htoken, height_append, hheight]
      rfl

end RefusedAt

/-- There is one first refusal at most. -/
theorem FirstRefusal.unique {options : Options} {tokens : List Token} {index index' : Nat}
    {error error' : ParseError} (h : FirstRefusal options tokens index error)
    (h' : FirstRefusal options tokens index' error') : index = index' ∧ error = error' := by
  rcases Nat.lt_trichotomy index index' with hlt | rfl | hlt
  · exact absurd h.refused (h'.first index hlt error)
  · exact ⟨rfl, h.refused.unique h'.refused⟩
  · exact absurd h'.refused (h.first index' hlt error')

namespace Assembly

variable {options : Options} {index : Nat} {a next : Assembly}

/-- No more lists are ever open than the limit allows. -/
theorem Takes.openLists_le {taken : List Token} {limit : Nat} (hlimit : limit ∈ options.maxDepth)
    (h : Takes options index a taken next) (ha : a.openLists ≤ limit) :
    next.openLists ≤ limit := by
  induction h with
  | nil => exact ha
  | cons hstep _ ih =>
      apply ih
      rcases step_eq_ok hstep with ⟨atom, -, rfl⟩ | ⟨-, hlt, rfl⟩ | ⟨-, hfinish⟩
      · exact ha
      · exact hlt limit hlimit
      · have := openLists_of_finishList? hfinish
        omega

/-- An assembly that has taken what stands before a token is refused the token
exactly as the tokens have it. -/
theorem step_eq_error_iff_refusedAt {taken rest : List Token} {token : Token}
    {error : ParseError} (h : Takes options 0 .empty taken a) :
    a.step options taken.length token = .error error ↔
      RefusedAt options (taken ++ token :: rest) taken.length error := by
  have hlists : (a.openLists : Int) = height taken := by
    simpa [empty] using h.openLists_eq
  have htoken : (taken ++ token :: rest)[taken.length]? = some token := by
    simp
  have htaken : (taken ++ token :: rest).take taken.length = taken :=
    List.take_left
  constructor
  · intro hstep
    rcases step_eq_error hstep with ⟨rfl, hzero, rfl⟩ | ⟨limit, hlimit, rfl, hle, rfl⟩
    · refine .unexpectedClose htoken ?_
      rw [htaken]
      omega
    · refine .nestingTooDeep hlimit htoken ?_
      have hmost := h.openLists_le hlimit (Nat.zero_le limit)
      rw [htaken]
      omega
  · intro hrefused
    cases hrefused with
    | unexpectedClose htoken' hheight =>
        cases htoken.symm.trans htoken'
        rw [htaken] at hheight
        exact step_closeParen_of_openLists_eq_zero options _ (by omega)
    | @nestingTooDeep limit hlimit htoken' hheight =>
        cases htoken.symm.trans htoken'
        rw [htaken] at hheight
        exact step_openParen_of_le _ hlimit (by omega)

/-- What has been taken was refused nowhere. -/
theorem Takes.not_refusedAt {taken rest : List Token} (h : Takes options 0 .empty taken a)
    {place : Nat} (hplace : place < taken.length) {error : ParseError} :
    ¬ RefusedAt options (taken ++ rest) place error := by
  intro hrefused
  obtain ⟨before, token, behind, rfl, rfl⟩ :
      ∃ before token behind, taken = before ++ token :: behind ∧ before.length = place :=
    ⟨taken.take place, taken[place], taken.drop (place + 1), by simp, by simp; omega⟩
  obtain ⟨middle, hbefore, hbehind⟩ := h.exists_of_append
  cases hbehind with
  | cons hstep _ =>
      rw [List.append_assoc, List.cons_append, ← step_eq_error_iff_refusedAt hbefore] at hrefused
      rw [Nat.zero_add, hrefused] at hstep
      cases hstep

/-- Nothing is refused of tokens that are all taken. -/
theorem Takes.not_refusedAt_self {tokens : List Token} (h : Takes options 0 .empty tokens a)
    {place : Nat} {error : ParseError} : ¬ RefusedAt options tokens place error := by
  intro hrefused
  have hplace := hrefused.lt_length
  rw [← List.append_nil tokens] at hrefused
  exact h.not_refusedAt hplace hrefused

end Assembly

namespace Tree

variable {tokens : List Token} {options : Options}

/-- A parse fails at the first token that is refused, or behind the last token if
lists are open there, or else it succeeds. -/
theorem ofTokens_cases (tokens : List Token) (options : Options) :
    (∃ index error, ofTokens tokens options = .error error ∧
        FirstRefusal options tokens index error) ∨
      (∀ index error, ¬ RefusedAt options tokens index error) ∧
        ((∃ n : Nat, 0 < n ∧ height tokens = n ∧
            ofTokens tokens options = .error (.unclosedOpen n)) ∨
          height tokens = 0 ∧ ∃ t, ofTokens tokens options = .ok t) := by
  have hheight {a : Assembly} (htakes : Assembly.Takes options 0 .empty tokens a) :
      (a.openLists : Int) = height tokens := by
    simpa [Assembly.empty] using htakes.openLists_eq
  cases hparse : ofTokens tokens options with
  | ok t =>
      obtain ⟨a, htakes, hzero, -⟩ := ofTokens_eq_ok_iff.1 hparse
      refine .inr ⟨fun index error => htakes.not_refusedAt_self, .inr ⟨?_, t, rfl⟩⟩
      rw [← hheight htakes, hzero]
      rfl
  | error error =>
      rcases ofTokens_eq_error_iff_takes.1 hparse with
        ⟨a, htakes, hopen, rfl⟩ | ⟨taken, token, rest, a, rfl, htakes, hrefuse⟩
      · exact .inr ⟨fun index error => htakes.not_refusedAt_self,
          .inl ⟨a.openLists, hopen, (hheight htakes).symm, rfl⟩⟩
      · refine .inl ⟨taken.length, error, rfl, ?_, ?_⟩
        · exact (Assembly.step_eq_error_iff_refusedAt htakes).1 hrefuse
        · intro earlier hearlier other
          exact htakes.not_refusedAt hearlier

theorem ofTokens_eq_error_iff {error : ParseError} :
    ofTokens tokens options = .error error ↔
      (∃ index, FirstRefusal options tokens index error) ∨
        (∀ index other, ¬ RefusedAt options tokens index other) ∧
          ∃ n : Nat, 0 < n ∧ height tokens = n ∧ error = .unclosedOpen n := by
  rcases ofTokens_cases tokens options with
    ⟨index, first, hparse, hfirst⟩ | ⟨hnone, ⟨n, hpos, hheight, hparse⟩ | ⟨hheight, t, hparse⟩⟩
  · rw [hparse, Except.error.injEq]
    constructor
    · rintro rfl
      exact .inl ⟨index, hfirst⟩
    · rintro (⟨index', hfirst'⟩ | ⟨hnone, -⟩)
      · exact (hfirst.unique hfirst').2
      · exact absurd hfirst.refused (hnone index first)
  · rw [hparse, Except.error.injEq]
    constructor
    · rintro rfl
      exact .inr ⟨hnone, n, hpos, hheight, rfl⟩
    · rintro (⟨index, hfirst⟩ | ⟨-, m, -, hm, rfl⟩)
      · exact absurd hfirst.refused (hnone index error)
      · rw [Int.ofNat_inj.1 (hheight.symm.trans hm)]
  · rw [hparse]
    constructor
    · intro h
      cases h
    · rintro (⟨index, hfirst⟩ | ⟨-, n, hpos, hn, -⟩)
      · exact absurd hfirst.refused (hnone index error)
      · omega

/-- A parse reports the first token that is refused. If none is, it reports the
lists that are open behind the last token, and succeeds if there are none. -/
theorem ofTokens_reports_first_refusal (tokens : List Token) (options : Options) :
    (∀ error, ofTokens tokens options = .error error ↔
        (∃ index, FirstRefusal options tokens index error) ∨
          (∀ index other, ¬ RefusedAt options tokens index other) ∧
            ∃ n : Nat, 0 < n ∧ height tokens = n ∧ error = .unclosedOpen n) ∧
      ((∃ t, ofTokens tokens options = .ok t) ↔
        (∀ index other, ¬ RefusedAt options tokens index other) ∧ height tokens ≤ 0) := by
  refine ⟨fun _ => ofTokens_eq_error_iff, ?_⟩
  rcases ofTokens_cases tokens options with
    ⟨index, error, hparse, hfirst⟩ | ⟨hnone, ⟨n, hpos, hheight, hparse⟩ | ⟨hheight, t, hparse⟩⟩
  · simp only [hparse, reduceCtorEq, exists_false, false_iff]
    exact fun h => h.1 index error hfirst.refused
  · simp only [hparse, reduceCtorEq, exists_false, false_iff]
    exact fun h => by omega
  · exact ⟨fun _ => ⟨hnone, by omega⟩, fun _ => ⟨t, hparse⟩⟩

end Tree

end SExpr
