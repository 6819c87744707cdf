import SExpr.Proofs.Flattening

/-!
Parsing by recursive descent. `sequence` reads forms as the grammar has them, one
call for each open list, and hands what it has read to the call that is waiting for
it. An assembly keeps the unfinished lists where the calls would be pending, so each
call is a stretch of a run: with the forms that the call returns added to the
innermost list, the run finishes that list and goes on behind it (`resume`).
-/

namespace SExpr

namespace Descent

/-- The forms that were read from a position on, and the position behind them. -/
structure Found (position : Nat) where
  forms : List Node
  behind : Nat
  le_behind : position ≤ behind

/-- A form that was read, and what was read behind it. -/
def Found.cons {position middle : Nat} (form : Node) (h : position ≤ middle)
    (rest : Found middle) : Found position :=
  ⟨form :: rest.forms, rest.behind, Nat.le_trans h rest.le_behind⟩

/-- Reads the forms of the innermost open list from a position on, up to the
parenthesis that closes it; where no list is open, up to the end of the tokens. -/
def sequence (options : Options) (tokens : List Token) (openLists position : Nat) :
    Except ParseError (Found position) :=
  match _ : tokens[position]? with
  | none =>
    if openLists = 0 then .ok ⟨[], position, Nat.le_refl position⟩
    else .error (.unclosedOpen openLists)
  | some (.atom atom) =>
    match sequence options tokens openLists (position + 1) with
    | .error error => .error error
    | .ok rest => .ok (rest.cons (.leaf atom) (Nat.le_succ position))
  | some .openParen =>
    if options.maxDepth = some openLists then .error (.nestingTooDeep openLists position)
    else
      match sequence options tokens (openLists + 1) (position + 1) with
      | .error error => .error error
      | .ok children =>
        match sequence options tokens openLists children.behind with
        | .error error => .error error
        | .ok rest =>
          .ok (rest.cons (.list children.forms)
            (Nat.le_trans (Nat.le_succ position) children.le_behind))
  | some .closeParen =>
    if openLists = 0 then .error (.unexpectedClose position)
    else .ok ⟨[], position + 1, Nat.le_succ position⟩
termination_by tokens.length - position
decreasing_by
  all_goals have hposition := (List.getElem?_eq_some_iff.1 ‹_›).1
  · omega
  · omega
  · have hbehind := children.le_behind
    omega

/-- The tree that recursive descent makes of a sequence of tokens. -/
def tree (tokens : List Token) (options : Options) : Except ParseError Tree :=
  (sequence options tokens 0 0).map fun found => ⟨found.forms⟩

end Descent

namespace Assembly

variable {options : Options} {tokens : List Token} {position openLists : Nat} {a next : Assembly}

/-- What a run does behind forms that were read: it finishes the list that they end
and goes on, or it is over if no list is open. -/
def resume (options : Options) (tokens : List Token) (a : Assembly)
    (found : Descent.Found position) : Option ParseError × Assembly :=
  match (a.addForms found.forms).finishList? with
  | none => (none, a.addForms found.forms)
  | some next => next.run options found.behind (tokens.drop found.behind)

/-- A run from a position on is what a call from there stands for: it goes on as the
call returns, or has the error that the call has. -/
def RunsAs (options : Options) (tokens : List Token) (position : Nat) (a : Assembly) :
    Except ParseError (Descent.Found position) → Prop
  | .ok found => a.run options position (tokens.drop position) = a.resume options tokens found
  | .error error => (a.run options position (tokens.drop position)).1 = some error

/-! ### One token of a run -/

theorem run_drop_of_step {token : Token} (htoken : tokens[position]? = some token)
    (hstep : a.step options position token = .ok next) :
    a.run options position (tokens.drop position) =
      next.run options (position + 1) (tokens.drop (position + 1)) := by
  obtain ⟨hposition, rfl⟩ := List.getElem?_eq_some_iff.1 htoken
  rw [List.drop_eq_getElem_cons hposition, run, hstep]

theorem runsAs_error_of_step {token : Token} {error : ParseError}
    (htoken : tokens[position]? = some token)
    (hstep : a.step options position token = .error error) :
    a.RunsAs options tokens position (.error error) := by
  obtain ⟨hposition, rfl⟩ := List.getElem?_eq_some_iff.1 htoken
  rw [RunsAs, List.drop_eq_getElem_cons hposition, run, hstep]

theorem run_drop_of_none (htoken : tokens[position]? = none) :
    a.run options position (tokens.drop position) =
      (if a.openLists = 0 then none else some (.unclosedOpen a.openLists), a) := by
  rw [List.drop_eq_nil_of_le (List.getElem?_eq_none_iff.1 htoken), run]

/-- Where no more lists are open than the limit allows, one more may be opened unless
there are as many. -/
theorem step_openParen (hlimit : ∀ limit ∈ options.maxDepth, a.openLists ≤ limit)
    (hne : options.maxDepth ≠ some a.openLists) :
    a.step options position .openParen = .ok a.startList ∧
      ∀ limit ∈ options.maxDepth, a.startList.openLists ≤ limit := by
  have hlt : ∀ limit ∈ options.maxDepth, a.openLists < limit := by
    intro limit hmax
    refine Nat.lt_of_le_of_ne (hlimit limit hmax) ?_
    rintro rfl
    exact hne hmax
  exact ⟨step_openParen_of_lt options position hlt, hlt⟩

/-! ### Calls and runs -/

theorem resume_cons {middle : Nat} (a : Assembly) (form : Node) (h : position ≤ middle)
    (rest : Descent.Found middle) :
    a.resume options tokens (rest.cons form h) =
      (a.addForms [form]).resume options tokens rest := by
  rw [resume, resume, addForms_append]
  rfl

/-- What a call returns is one more form in the list that was open before it. -/
theorem run_drop_of_children {children : Descent.Found (position + 1)}
    (htoken : tokens[position]? = some .openParen)
    (hstep : a.step options position .openParen = .ok a.startList)
    (hchildren : a.startList.RunsAs options tokens (position + 1) (.ok children)) :
    a.run options position (tokens.drop position) =
      (a.addForms [.list children.forms]).run options children.behind
        (tokens.drop children.behind) := by
  rw [RunsAs] at hchildren
  rw [run_drop_of_step htoken hstep, hchildren, resume, finishList?_startList]

/-- Every call of the descent is a stretch of the run from an assembly with as many
open lists as there are calls pending. -/
theorem runsAs_sequence (ha : a.openLists = openLists)
    (hlimit : ∀ limit ∈ options.maxDepth, a.openLists ≤ limit) :
    a.RunsAs options tokens position (Descent.sequence options tokens openLists position) := by
  -- one case for each way out of a call; a nested call starts from another assembly
  fun_induction Descent.sequence options tokens openLists position generalizing a with
  | case1 position htoken =>
      have hnone : (a.addForms []).finishList? = none := finishList?_eq_none_iff.2 ha
      rw [RunsAs, run_drop_of_none htoken, if_pos ha, resume, hnone]
      rfl
  | case2 openLists position htoken hopen =>
      subst ha
      rw [RunsAs, run_drop_of_none htoken, if_neg hopen]
  | case3 openLists position atom htoken error herror ih =>
      rw [herror] at ih
      rw [RunsAs, run_drop_of_step htoken rfl]
      exact ih ha hlimit
  | case4 openLists position atom htoken rest hrest ih =>
      rw [hrest] at ih
      rw [RunsAs, run_drop_of_step htoken rfl, resume_cons]
      exact ih ha hlimit
  | case5 openLists position htoken hmax =>
      subst ha
      exact runsAs_error_of_step htoken (step_openParen_of_le position hmax (Nat.le_refl _))
  | case6 openLists position htoken hmax error herror ih =>
      subst ha
      obtain ⟨hstep, hlimit'⟩ := step_openParen hlimit hmax
      rw [herror] at ih
      rw [RunsAs, run_drop_of_step htoken hstep]
      exact ih rfl hlimit'
  | case7 openLists position htoken hmax children hchildren error herror ihchildren ihrest =>
      subst ha
      obtain ⟨hstep, hlimit'⟩ := step_openParen hlimit hmax
      rw [hchildren] at ihchildren
      rw [herror] at ihrest
      rw [RunsAs, run_drop_of_children htoken hstep (ihchildren rfl hlimit')]
      exact ihrest rfl hlimit
  | case8 openLists position htoken hmax children hchildren rest hrest ihchildren ihrest =>
      subst ha
      obtain ⟨hstep, hlimit'⟩ := step_openParen hlimit hmax
      rw [hchildren] at ihchildren
      rw [hrest] at ihrest
      rw [RunsAs, run_drop_of_children htoken hstep (ihchildren rfl hlimit'), resume_cons]
      exact ihrest rfl hlimit
  | case9 position htoken =>
      exact runsAs_error_of_step htoken
        (step_closeParen_of_openLists_eq_zero options position ha)
  | case10 openLists position htoken hopen =>
      have hsome : a.finishList? ≠ none := fun hnone => hopen (ha ▸ finishList?_eq_none_iff.1 hnone)
      obtain ⟨next, hnext⟩ := Option.ne_none_iff_exists'.1 hsome
      have hstep : a.step options position .closeParen = .ok next := by
        simp [step, hnext]
      have hnext' : (a.addForms []).finishList? = some next := hnext
      rw [RunsAs, run_drop_of_step htoken hstep, resume, hnext']

end Assembly

/-- A parse has the result of recursive descent, whether that is a tree or an error. -/
theorem Tree.ofTokens_eq_descent (tokens : List Token) (options : Options) :
    Tree.ofTokens tokens options = Descent.tree tokens options := by
  have hruns : Assembly.empty.RunsAs options tokens 0 (Descent.sequence options tokens 0 0) :=
    Assembly.runsAs_sequence rfl fun limit _ => Nat.zero_le limit
  rw [Tree.ofTokens, Descent.tree]
  cases hcall : Descent.sequence options tokens 0 0 with
  | error error =>
      rw [hcall, Assembly.RunsAs, List.drop_zero] at hruns
      rcases hrun : Assembly.empty.run options 0 tokens with ⟨error?, a⟩
      rw [hrun] at hruns
      obtain rfl : error? = some error := hruns
      rfl
  | ok found =>
      rw [hcall, Assembly.RunsAs, List.drop_zero] at hruns
      have hnone : (Assembly.empty.addForms found.forms).finishList? = none :=
        Assembly.finishList?_eq_none_iff.2 rfl
      have hforms : (Assembly.empty.addForms found.forms).forms = found.forms := by
        rw [Assembly.forms_addForms]
        rfl
      rw [hruns, Assembly.resume, hnone]
      show Except.ok (Tree.mk (Assembly.empty.addForms found.forms).forms) = .ok ⟨found.forms⟩
      rw [hforms]

end SExpr
