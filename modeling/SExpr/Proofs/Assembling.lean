import SExpr.Assembly

/-!
Runs of an assembly, token by token. `Takes` says that a sequence of tokens is
taken from first to last; what an assembly has gained by then, its tokens and its
number of open lists, is read off the sequence. A run takes tokens until one is
refused or none is left (`exists_takes_of_run`), so a statement about runs needs
only what holds of one step.
-/

namespace SExpr

/-- The opening parentheses of a sequence of tokens less the closing ones. -/
def height (tokens : List Token) : Int :=
  (tokens.count .openParen : Int) - tokens.count .closeParen

@[simp] theorem height_nil : height [] = 0 := rfl

@[simp] theorem height_append (as bs : List Token) : height (as ++ bs) = height as + height bs := by
  simp only [height, List.count_append]
  omega

theorem height_cons (token : Token) (tokens : List Token) :
    height (token :: tokens) = height [token] + height tokens :=
  height_append [token] tokens

@[simp] theorem height_openParen : height [.openParen] = 1 := rfl

@[simp] theorem height_closeParen : height [.closeParen] = -1 := rfl

@[simp] theorem height_atom (atom : Atom) : height [.atom atom] = 0 := by
  simp [height]

namespace Assembly

variable {options : Options} {index : Nat} {a next : Assembly}

/-! ### One token -/

/-- A list can be finished exactly when one is open. -/
theorem finishList?_eq_none_iff : a.finishList? = none ↔ a.openLists = 0 := by
  obtain ⟨current, _ | ⟨around, outer⟩, openLists, h⟩ := a
  all_goals simp [finishList?, h]

theorem openLists_of_finishList? (h : a.finishList? = some next) :
    a.openLists = next.openLists + 1 := by
  obtain ⟨current, _ | ⟨around, outer⟩, openLists, hlists⟩ := a
  · simp [finishList?] at h
  · simp only [finishList?, Option.some.injEq] at h
    subst h
    simp [hlists]

/-- What taking a token does. -/
theorem step_eq_ok {token : Token} (h : a.step options index token = .ok next) :
    (∃ atom, token = .atom atom ∧ next = a.addLeaf atom) ∨
      (token = .openParen ∧ (∀ limit ∈ options.maxDepth, a.openLists < limit) ∧
        next = a.startList) ∨
      (token = .closeParen ∧ a.finishList? = some next) := by
  cases token with
  | atom atom =>
      cases h
      exact .inl ⟨atom, rfl, rfl⟩
  | openParen =>
      refine .inr (.inl ⟨rfl, ?_⟩)
      simp only [step] at h
      split at h
      · cases h
        simp [*]
      · split at h <;> cases h
        simp_all
  | closeParen =>
      refine .inr (.inr ⟨rfl, ?_⟩)
      simp only [step] at h
      split at h <;> cases h
      assumption

/-- When a token is refused. -/
theorem step_eq_error {token : Token} {error : ParseError}
    (h : a.step options index token = .error error) :
    (token = .closeParen ∧ a.openLists = 0 ∧ error = .unexpectedClose index) ∨
      ∃ limit, options.maxDepth = some limit ∧ token = .openParen ∧ limit ≤ a.openLists ∧
        error = .nestingTooDeep limit index := by
  cases token with
  | atom atom => cases h
  | openParen =>
      right
      simp only [step] at h
      split at h
      · cases h
      next limit hlimit =>
        split at h <;> cases h
        exact ⟨limit, hlimit, rfl, ‹_›, rfl⟩
  | closeParen =>
      left
      simp only [step] at h
      split at h <;> cases h
      exact ⟨rfl, finishList?_eq_none_iff.1 ‹_›, rfl⟩

theorem step_openParen_of_lt (options : Options) (index : Nat)
    (h : ∀ limit ∈ options.maxDepth, a.openLists < limit) :
    a.step options index .openParen = .ok a.startList := by
  cases hmax : options.maxDepth with
  | none => simp [step, hmax]
  | some limit =>
      have hlt : a.openLists < limit := h limit hmax
      simp [step, hmax, Nat.not_le.2 hlt]

theorem step_openParen_of_le {limit : Nat} (index : Nat) (hlimit : options.maxDepth = some limit)
    (h : limit ≤ a.openLists) :
    a.step options index .openParen = .error (.nestingTooDeep limit index) := by
  simp [step, hlimit, h]

/-- A closing parenthesis is taken while a list is open, and closes one. -/
theorem exists_step_closeParen (options : Options) (index : Nat) (h : 0 < a.openLists) :
    ∃ next, a.step options index .closeParen = .ok next ∧ a.openLists = next.openLists + 1 := by
  have hsome : a.finishList? ≠ none := fun hnone =>
    Nat.ne_of_gt h (finishList?_eq_none_iff.1 hnone)
  obtain ⟨next, hfinish⟩ := Option.ne_none_iff_exists'.1 hsome
  exact ⟨next, by simp [step, hfinish], openLists_of_finishList? hfinish⟩

theorem step_closeParen_of_openLists_eq_zero (options : Options) (index : Nat)
    (h : a.openLists = 0) :
    a.step options index .closeParen = .error (.unexpectedClose index) := by
  simp [step, finishList?_eq_none_iff.2 h]

theorem openLists_step {token : Token} (h : a.step options index token = .ok next) :
    (next.openLists : Int) = a.openLists + height [token] := by
  rcases step_eq_ok h with ⟨atom, rfl, rfl⟩ | ⟨rfl, -, rfl⟩ | ⟨rfl, hfinish⟩
  · simp [addLeaf]
  · simp [startList]
  · have hlists := openLists_of_finishList? hfinish
    rw [height_closeParen]
    omega

/-! ### Many tokens -/

/-- An assembly takes all of a sequence of tokens, the first of them at `index`. -/
inductive Takes (options : Options) : Nat → Assembly → List Token → Assembly → Prop where
  | nil {index : Nat} {a : Assembly} : Takes options index a [] a
  | cons {index : Nat} {a middle next : Assembly} {token : Token} {tokens : List Token}
      (hstep : a.step options index token = .ok middle)
      (hrest : Takes options (index + 1) middle tokens next) :
      Takes options index a (token :: tokens) next

/-- The index behind a sequence of tokens, when its first token has been taken. -/
theorem add_length_cons (index : Nat) (token : Token) (tokens : List Token) :
    index + (token :: tokens).length = index + 1 + tokens.length := by
  rw [List.length_cons]
  omega

namespace Takes

theorem single {token : Token} (h : a.step options index token = .ok next) :
    Takes options index a [token] next :=
  .cons h .nil

theorem append {middle : Assembly} {as bs : List Token} (has : Takes options index a as middle)
    (hbs : Takes options (index + as.length) middle bs next) :
    Takes options index a (as ++ bs) next := by
  induction has with
  | nil => exact hbs
  | cons hstep _ ih =>
      refine .cons hstep (ih ?_)
      rwa [add_length_cons] at hbs

/-- What takes two sequences takes the first and then the second. -/
theorem exists_of_append {as bs : List Token} (h : Takes options index a (as ++ bs) next) :
    ∃ middle, Takes options index a as middle ∧
      Takes options (index + as.length) middle bs next := by
  induction as generalizing index a with
  | nil => exact ⟨a, .nil, h⟩
  | cons token as ih =>
      cases h with
      | cons hstep hrest =>
          obtain ⟨middle, has, hbs⟩ := ih hrest
          refine ⟨middle, .cons hstep has, ?_⟩
          rwa [add_length_cons]

theorem tokens_eq {taken : List Token} (h : Takes options index a taken next) :
    next.tokens = a.tokens ++ taken := by
  induction h with
  | nil => simp
  | cons hstep _ ih => rw [ih, tokens_step hstep, List.append_assoc, List.singleton_append]

theorem openLists_eq {taken : List Token} (h : Takes options index a taken next) :
    (next.openLists : Int) = a.openLists + height taken := by
  induction h with
  | nil => simp
  | @cons index a middle next token tokens hstep _ ih =>
      rw [ih, openLists_step hstep, height_cons token tokens, Int.add_assoc]

theorem run_append {taken rest : List Token} (h : Takes options index a taken next) :
    a.run options index (taken ++ rest) = next.run options (index + taken.length) rest := by
  induction h with
  | nil => rfl
  | cons hstep _ ih =>
      rw [List.cons_append, run, hstep, add_length_cons]
      exact ih

end Takes

/-- A run takes tokens until it is refused one or none is left; in the end it has
an error exactly if lists are open. -/
theorem exists_takes_of_run {tokens : List Token} {error? : Option ParseError}
    (h : a.run options index tokens = (error?, next)) :
    (Takes options index a tokens next ∧
      error? = if next.openLists = 0 then none else some (.unclosedOpen next.openLists)) ∨
    ∃ taken token rest error, tokens = taken ++ token :: rest ∧
      Takes options index a taken next ∧
      next.step options (index + taken.length) token = .error error ∧ error? = some error := by
  induction tokens generalizing index a with
  | nil =>
      cases h
      exact .inl ⟨.nil, rfl⟩
  | cons token tokens ih =>
      rw [run] at h
      split at h
      next error hstep =>
        cases h
        exact .inr ⟨[], token, tokens, error, rfl, .nil, hstep, rfl⟩
      next middle hstep =>
        rcases ih h with ⟨htakes, herror⟩ | ⟨taken, refused, rest, error, hsplit, htakes, hrefuse⟩
        · exact .inl ⟨.cons hstep htakes, herror⟩
        · refine .inr ⟨token :: taken, refused, rest, error, ?_, .cons hstep htakes, ?_⟩
          · rw [hsplit, List.cons_append]
          · rwa [add_length_cons]

theorem run_eq_none_iff {tokens : List Token} :
    a.run options index tokens = (none, next) ↔
      Takes options index a tokens next ∧ next.openLists = 0 := by
  constructor
  · intro h
    rcases exists_takes_of_run h with ⟨htakes, herror⟩ | ⟨_, _, _, _, _, _, _, herror⟩
    · exact ⟨htakes, by simpa using herror⟩
    · cases herror
  · rintro ⟨htakes, hlists⟩
    have hrun : a.run options index (tokens ++ []) = _ := htakes.run_append
    rwa [List.append_nil, run, if_pos hlists] at hrun

end Assembly

/-- A parse succeeds when all tokens are taken and no list is left open. -/
theorem Tree.ofTokens_eq_ok_iff {tokens : List Token} {options : Options} {t : Tree} :
    Tree.ofTokens tokens options = .ok t ↔ ∃ a : Assembly,
      Assembly.Takes options 0 .empty tokens a ∧ a.openLists = 0 ∧ t = ⟨a.forms⟩ := by
  constructor
  · intro h
    unfold Tree.ofTokens at h
    split at h
    next a hrun =>
      cases h
      obtain ⟨htakes, hlists⟩ := Assembly.run_eq_none_iff.1 hrun
      exact ⟨a, htakes, hlists, rfl⟩
    next => cases h
  · rintro ⟨a, htakes, hlists, rfl⟩
    rw [Tree.ofTokens, Assembly.run_eq_none_iff.2 ⟨htakes, hlists⟩]

/-- A parse fails when all tokens are taken and lists are left open, or where a token is
refused, whatever follows it. -/
theorem Tree.ofTokens_eq_error_iff_takes {tokens : List Token} {options : Options}
    {error : ParseError} :
    ofTokens tokens options = .error error ↔
      (∃ a : Assembly, Assembly.Takes options 0 .empty tokens a ∧ 0 < a.openLists ∧
        error = .unclosedOpen a.openLists) ∨
      ∃ (taken : List Token) (token : Token) (rest : List Token) (a : Assembly),
        tokens = taken ++ token :: rest ∧ Assembly.Takes options 0 .empty taken a ∧
          a.step options taken.length token = .error error := by
  constructor
  · intro h
    rcases hrun : Assembly.empty.run options 0 tokens with ⟨error?, a⟩
    rw [Tree.ofTokens, hrun] at h
    rcases Assembly.exists_takes_of_run hrun with
      ⟨htakes, rfl⟩ | ⟨taken, token, rest, error, hsplit, htakes, hrefuse, rfl⟩
    · by_cases hopen : a.openLists = 0
      · rw [if_pos hopen] at h
        cases h
      · rw [if_neg hopen] at h
        cases h
        exact .inl ⟨a, htakes, Nat.pos_of_ne_zero hopen, rfl⟩
    · cases h
      rw [Nat.zero_add] at hrefuse
      exact .inr ⟨taken, token, rest, a, hsplit, htakes, hrefuse⟩
  · rintro (⟨a, htakes, hopen, rfl⟩ | ⟨taken, token, rest, a, rfl, htakes, hrefuse⟩)
    · have hrun : Assembly.empty.run options 0 (tokens ++ []) = _ := htakes.run_append
      rw [List.append_nil, Assembly.run, if_neg (Nat.ne_of_gt hopen)] at hrun
      rw [Tree.ofTokens, hrun]
    · rw [Tree.ofTokens, htakes.run_append, Assembly.run, Nat.zero_add, hrefuse]

end SExpr
