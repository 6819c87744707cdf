import Mathlib.Data.List.Perm.Basic
import SExpr.Accumulators
import SExpr.Proofs.Flattening

/-!
No form is lost. Accumulators that are edited in place go through the same states as an
assembly that is replaced as a whole (`on_descend`): the edits of a token that is taken end
in the next assembly, and a token that is refused is refused before anything is edited. So
what the accumulators hold flattens to the tokens taken, also when a parse fails; and the
lists that are let go of then contain, node by node, what these tokens have built.
-/

namespace SExpr

/-! ### Counting nodes -/

mutual

/-- Of the nodes within a node, the leaves are its atoms. -/
theorem Node.filterMap_atom?_nodes : ∀ n : Node, n.nodes.filterMap Node.atom? = n.atoms
  | .leaf atom => rfl
  | .list children => by
      rw [Node.nodes, Node.atoms, ← Forms.filterMap_atom?_nodes children,
        List.filterMap_cons_none rfl]

theorem Forms.filterMap_atom?_nodes :
    ∀ forms : List Node, (Forms.nodes forms).filterMap Node.atom? = Forms.atoms forms
  | [] => rfl
  | form :: forms => by
      rw [Forms.atoms, ← Node.filterMap_atom?_nodes form, ← Forms.filterMap_atom?_nodes forms,
        Forms.nodes, List.filterMap_append]

end

mutual

/-- Of the nodes within a node, each list is closed by one token. -/
theorem Node.countP_nodes : ∀ n : Node,
    n.nodes.countP (fun within => !within.isLeaf) = n.tokens.count .closeParen
  | .leaf atom => by simp [Node.nodes, Node.tokens, Node.isLeaf]
  | .list children => by
      have hne : Token.openParen ≠ .closeParen := nofun
      rw [Node.nodes, Node.tokens, List.countP_cons_of_pos rfl, Forms.countP_nodes children,
        List.count_cons_of_ne hne, List.count_append]
      rfl

theorem Forms.countP_nodes : ∀ forms : List Node,
    (Forms.nodes forms).countP (fun within => !within.isLeaf) =
      (Forms.tokens forms).count .closeParen
  | [] => rfl
  | form :: forms => by
      rw [Forms.nodes, Forms.tokens, List.countP_append, List.count_append,
        Node.countP_nodes form, Forms.countP_nodes forms]

end

namespace Edit

variable {α β : Type} {acc next : Accumulators} {edit : Edit α} {rest : α → Edit β}

theorem on_get (acc : Accumulators) : (get : Edit Accumulators).on acc = (.ok acc, acc) := rfl

theorem on_bind_of_ok {a : α} (h : edit.on acc = (.ok a, next)) :
    (edit >>= rest).on acc = (rest a).on next := by
  show (ExceptT.bindCont rest (edit.on acc).1).run (edit.on acc).2 = _
  rw [h]
  rfl

theorem on_bind_of_error {error : ParseError} (h : edit.on acc = (.error error, next)) :
    (edit >>= rest).on acc = (.error error, next) := by
  show (ExceptT.bindCont rest (edit.on acc).1).run (edit.on acc).2 = _
  rw [h]
  rfl

end Edit

/-- The tokens that have been taken when a parse fails: those before the one that the error
is about, or all. -/
def ParseError.taken (tokens : List Token) : ParseError → List Token
  | .unexpectedClose index | .nestingTooDeep _ index => tokens.take index
  | .unclosedOpen _ => tokens

namespace Accumulators

/-! ### One token -/

variable {options : Options} {index : Nat}

theorem on_take_atom (acc : Accumulators) (atom : Atom) :
    (take options index (.atom atom)).on acc =
      (.ok (), { acc with level := acc.level ++ [.leaf atom] }) := rfl

theorem on_take_openParen {acc : Accumulators}
    (h : ∀ limit ∈ options.maxDepth, acc.enclosing.length < limit) :
    (take options index .openParen).on acc = (.ok (), ⟨[], acc.enclosing ++ [acc.level]⟩) := by
  unfold take
  cases hmax : options.maxDepth with
  | none => rfl
  | some limit =>
      have hlt : acc.enclosing.length < limit := h limit hmax
      dsimp only
      rw [Edit.on_bind_of_ok (Edit.on_get acc), if_neg (Nat.not_le.2 hlt)]
      rfl

theorem on_take_openParen_of_le {acc : Accumulators} {limit : Nat}
    (hlimit : options.maxDepth = some limit) (h : limit ≤ acc.enclosing.length) :
    (take options index .openParen).on acc = (.error (.nestingTooDeep limit index), acc) := by
  unfold take
  rw [hlimit]
  dsimp only
  rw [Edit.on_bind_of_ok (Edit.on_get acc), if_pos h]
  rfl

theorem on_take_closeParen (level parent : List Node) (enclosing : List (List Node)) :
    (take options index .closeParen).on ⟨level, enclosing ++ [parent]⟩ =
      (.ok (), ⟨parent ++ [.list level], enclosing⟩) := by
  unfold take
  have hunpark : unpark?.on ⟨level, enclosing ++ [parent]⟩ =
      (.ok (some parent), ⟨level, enclosing⟩) := by
    show (Except.ok (enclosing ++ [parent]).getLast?,
      Accumulators.mk level (enclosing ++ [parent]).dropLast) = _
    rw [List.getLast?_concat, List.dropLast_concat]
  rw [Edit.on_bind_of_ok hunpark]
  rfl

theorem on_take_closeParen_of_nil {acc : Accumulators} (h : acc.enclosing = []) :
    (take options index .closeParen).on acc = (.error (.unexpectedClose index), acc) := by
  obtain ⟨level, enclosing⟩ := acc
  obtain rfl : enclosing = [] := h
  rfl

/-! ### Accumulators and assemblies -/

/-- The accumulators that hold what an assembly holds. -/
def ofAssembly (a : Assembly) : Accumulators := ⟨a.forms, (a.outer.map List.reverse).reverse⟩

theorem length_enclosing_ofAssembly (a : Assembly) :
    (ofAssembly a).enclosing.length = a.openLists := by
  simp [ofAssembly, a.openLists_eq]

section

variable {a next : Assembly} {token : Token} {tokens : List Token} {error : ParseError}

/-- The edits of a token make of the accumulators what the assembly becomes. -/
theorem on_take_of_ok (h : a.step options index token = .ok next) :
    (take options index token).on (ofAssembly a) = (.ok (), ofAssembly next) := by
  rcases Assembly.step_eq_ok h with ⟨atom, rfl, rfl⟩ | ⟨rfl, hlimit, rfl⟩ | ⟨rfl, hfinish⟩
  · rw [on_take_atom]
    simp [ofAssembly, Assembly.forms, Assembly.addLeaf]
  · have hlists := length_enclosing_ofAssembly a
    rw [on_take_openParen (hlists ▸ hlimit)]
    simp [ofAssembly, Assembly.forms, Assembly.startList]
  · obtain ⟨current, _ | ⟨around, outer⟩, openLists, hlists⟩ := a
    · cases hfinish
    · cases hfinish
      rw [ofAssembly, List.map_cons, List.reverse_cons, on_take_closeParen]
      simp [ofAssembly, Assembly.forms]

/-- A token that is refused leaves the accumulators as they were. -/
theorem on_take_of_error (h : a.step options index token = .error error) :
    (take options index token).on (ofAssembly a) = (.error error, ofAssembly a) := by
  have hlists := length_enclosing_ofAssembly a
  rcases Assembly.step_eq_error h with ⟨rfl, hzero, rfl⟩ | ⟨limit, hlimit, rfl, hle, rfl⟩
  · have hnone : (ofAssembly a).enclosing = [] := List.length_eq_zero_iff.1 (hlists.trans hzero)
    exact on_take_closeParen_of_nil hnone
  · exact on_take_openParen_of_le hlimit (hlists ▸ hle)

/-- Behind the tokens that an assembly takes, the parse goes on from what it has become. -/
theorem on_takeAll_append {taken : List Token} (rest : List Token)
    (h : Assembly.Takes options index a taken next) :
    (takeAll options index (taken ++ rest)).on (ofAssembly a) =
      (takeAll options (index + taken.length) rest).on (ofAssembly next) := by
  induction h with
  | nil => rfl
  | cons hstep _ ih =>
      rw [List.cons_append, takeAll, Edit.on_bind_of_ok (on_take_of_ok hstep), ih,
        Assembly.add_length_cons]

theorem on_takeAll_of_takes (h : Assembly.Takes options index a tokens next) :
    (takeAll options index tokens).on (ofAssembly a) = (.ok (), ofAssembly next) := by
  have happend := on_takeAll_append [] h
  rwa [List.append_nil] at happend

theorem on_takeAll_of_error {taken rest : List Token}
    (h : Assembly.Takes options index a taken next)
    (hstep : next.step options (index + taken.length) token = .error error) :
    (takeAll options index (taken ++ token :: rest)).on (ofAssembly a) =
      (.error error, ofAssembly next) := by
  rw [on_takeAll_append _ h]
  exact Edit.on_bind_of_error (on_take_of_error hstep)

/-- Tokens that the edits take are tokens that the assembly takes. -/
theorem exists_takes_of_on_takeAll {acc : Accumulators}
    (h : (takeAll options index tokens).on (ofAssembly a) = (.ok (), acc)) :
    ∃ next, Assembly.Takes options index a tokens next ∧ acc = ofAssembly next := by
  rcases hrun : a.run options index tokens with ⟨error?, next⟩
  rcases Assembly.exists_takes_of_run hrun with
    ⟨htakes, -⟩ | ⟨taken, token, rest, error, rfl, htakes, hrefuse, -⟩
  · cases h.symm.trans (on_takeAll_of_takes htakes)
    exact ⟨next, htakes, rfl⟩
  · cases h.symm.trans (on_takeAll_of_error htakes hrefuse)

theorem on_finish (a : Assembly) :
    finish.on (ofAssembly a) =
      (if a.openLists = 0 then .ok () else .error (.unclosedOpen a.openLists), ofAssembly a) := by
  rw [finish, Edit.on_bind_of_ok (Edit.on_get _), length_enclosing_ofAssembly]
  by_cases hopen : a.openLists = 0
  · rw [if_pos hopen, if_neg (not_not.2 hopen)]
    rfl
  · rw [if_neg hopen, if_pos hopen]
    rfl

/-- The whole parse edits the accumulators into what the run of an assembly leaves. -/
theorem on_descend (options : Options) (tokens : List Token) :
    (descend options tokens).on .empty =
      match Assembly.empty.run options 0 tokens with
      | (none, a) => (.ok (), ofAssembly a)
      | (some error, a) => (.error error, ofAssembly a) := by
  have hempty : Accumulators.empty = ofAssembly .empty := rfl
  rcases hrun : Assembly.empty.run options 0 tokens with ⟨error?, a⟩
  rw [hempty, descend]
  rcases Assembly.exists_takes_of_run hrun with
    ⟨htakes, rfl⟩ | ⟨taken, token, rest, error, rfl, htakes, hrefuse, rfl⟩
  · rw [Edit.on_bind_of_ok (on_takeAll_of_takes htakes), on_finish]
    by_cases hopen : a.openLists = 0
    · simp only [if_pos hopen]
    · simp only [if_neg hopen]
  · exact Edit.on_bind_of_error (on_takeAll_of_error htakes hrefuse)

end

/-! ### What accumulators hold -/

/-- The tokens that accumulators have taken: the lists around the level are open, and each
was opened behind the forms of the one around it. -/
def tokens (acc : Accumulators) : List Token :=
  acc.enclosing.flatMap (fun around => Forms.tokens around ++ [.openParen]) ++
    Forms.tokens acc.level

theorem tokens_ofAssembly (a : Assembly) : (ofAssembly a).tokens = a.tokens := by
  rw [tokens, ofAssembly, Assembly.tokens, ← List.map_reverse, List.flatMap_map]

/-- Accumulators hold exactly what a sequence of tokens has built. -/
structure Holds (acc : Accumulators) (taken : List Token) : Prop where
  tokens_eq : acc.tokens = taken
  length_enclosing_eq : (acc.enclosing.length : Int) = height taken

theorem holds_of_takes {options : Options} {taken : List Token} {a : Assembly}
    (h : Assembly.Takes options 0 .empty taken a) : (ofAssembly a).Holds taken := by
  constructor
  · rw [tokens_ofAssembly, h.tokens_eq]
    rfl
  · have hempty : (Assembly.empty.openLists : Int) = 0 := rfl
    rw [length_enclosing_ofAssembly, h.openLists_eq, hempty, Int.zero_add]

/-- The lists that the accumulators are made of, in the order in which they are let go of. -/
def lists (acc : Accumulators) : List (List Node) := acc.level :: acc.enclosing

theorem filterMap_atom?_lists (acc : Accumulators) :
    ((acc.lists.flatMap Forms.nodes).filterMap Node.atom?).Perm
      (acc.tokens.filterMap Token.atom?) := by
  have hatoms (around : List Node) :
      (Forms.tokens around ++ [Token.openParen]).filterMap Token.atom? = Forms.atoms around := by
    rw [List.filterMap_append, Forms.filterMap_atom?_tokens]
    exact List.append_nil _
  rw [lists, tokens, List.filterMap_flatMap, List.filterMap_append, List.filterMap_flatMap]
  simp only [hatoms, Forms.filterMap_atom?_nodes, Forms.filterMap_atom?_tokens]
  exact List.perm_append_comm

theorem countP_lists (acc : Accumulators) :
    (acc.lists.flatMap Forms.nodes).countP (fun n => !n.isLeaf) =
      acc.tokens.count .closeParen := by
  have hcount (around : List Node) :
      (Forms.tokens around ++ [Token.openParen]).count .closeParen =
        (Forms.tokens around).count .closeParen := by
    simp
  rw [lists, tokens, List.countP_flatMap, List.count_append, List.count_flatMap]
  simp only [Function.comp_def, hcount, Forms.countP_nodes, List.map_cons, List.sum_cons]
  exact Nat.add_comm _ _

theorem release_lists (acc : Accumulators) :
    (acc.lists.flatMap Forms.release).Perm (acc.lists.flatMap Forms.nodes) :=
  .flatMap_left _ fun forms _ => Forms.release_perm forms

/-! ### Whole parses -/

section

variable {options : Options} {tokens : List Token} {error : ParseError}

/-- At an error the tokens before it have been taken, and nothing since. -/
theorem takes_taken_of_run {a : Assembly}
    (h : Assembly.empty.run options 0 tokens = (some error, a)) :
    Assembly.Takes options 0 .empty (error.taken tokens) a := by
  rcases Assembly.exists_takes_of_run h with
    ⟨htakes, herror⟩ | ⟨taken, token, rest, refusal, rfl, htakes, hrefuse, herror⟩
  · split at herror <;> cases herror
    exact htakes
  · cases herror
    rw [Nat.zero_add] at hrefuse
    rcases Assembly.step_eq_error hrefuse with ⟨-, -, rfl⟩ | ⟨limit, -, -, -, rfl⟩
    all_goals
      show Assembly.Takes options 0 .empty ((taken ++ token :: rest).take taken.length) a
      rwa [List.take_left]

variable {acc : Accumulators}

theorem exists_run_of_on_descend {result : Except ParseError Unit}
    (h : (descend options tokens).on .empty = (result, acc)) :
    ∃ a, acc = ofAssembly a ∧ Assembly.empty.run options 0 tokens =
      (match result with | .ok () => none | .error error => some error, a) := by
  have hdescend := on_descend options tokens
  rcases hrun : Assembly.empty.run options 0 tokens with ⟨_ | error, a⟩
  all_goals
    rw [hrun] at hdescend
    cases h.symm.trans hdescend
    exact ⟨a, rfl, rfl⟩

theorem build_of_on_descend_ok (h : (descend options tokens).on .empty = (.ok (), acc)) :
    build options tokens = ([], .ok ⟨acc.level⟩) := by
  rw [build, h]

theorem build_of_on_descend_error
    (h : (descend options tokens).on .empty = (.error error, acc)) :
    build options tokens = (acc.lists, .error error) := by
  rw [build, h]
  rfl

end

/-- Building in place gives the tree that the tokens stand for, or the same error. -/
theorem build_snd (options : Options) (tokens : List Token) :
    (build options tokens).2 = Tree.ofTokens tokens options := by
  rcases h : (descend options tokens).on .empty with ⟨error | ⟨⟩, acc⟩
  · obtain ⟨a, -, hrun⟩ := exists_run_of_on_descend h
    rw [build_of_on_descend_error h, Tree.ofTokens, hrun]
  · obtain ⟨a, rfl, hrun⟩ := exists_run_of_on_descend h
    rw [build_of_on_descend_ok h, Tree.ofTokens, hrun]
    rfl

/-- A parse in place loses no form and holds none twice. Behind each token that is taken the
accumulators hold what the tokens so far have built, and the rest of the parse goes on from
there. A parse that succeeds ends with all tokens in the tree. One that fails ends with what
the tokens before the error have built, as if it had not met the token that it refuses; and
it lets go of exactly that, each node once: a leaf for every atom among these tokens and a
list for every list that they have finished. -/
theorem keep_every_form (tokens : List Token) (options : Options) :
    (build options tokens).2 = Tree.ofTokens tokens options ∧
      (∀ taken rest acc, tokens = taken ++ rest →
        (takeAll options 0 taken).on .empty = (.ok (), acc) →
          acc.Holds taken ∧
            (takeAll options 0 tokens).on .empty = (takeAll options taken.length rest).on acc) ∧
      (∀ acc, (descend options tokens).on .empty = (.ok (), acc) →
        acc.Holds tokens ∧ acc.enclosing = [] ∧
          build options tokens = ([], .ok ⟨acc.level⟩)) ∧
      ∀ error acc, (descend options tokens).on .empty = (.error error, acc) →
        acc.Holds (error.taken tokens) ∧
          (takeAll options 0 (error.taken tokens)).on .empty = (.ok (), acc) ∧
          ∃ given, build options tokens = (given, .error error) ∧
            given = acc.level :: acc.enclosing ∧
            (given.flatMap Forms.release).Perm (given.flatMap Forms.nodes) ∧
            ((given.flatMap Forms.release).filterMap Node.atom?).Perm
              ((error.taken tokens).filterMap Token.atom?) ∧
            (given.flatMap Forms.release).countP (fun n => !n.isLeaf) =
              (error.taken tokens).count .closeParen := by
  refine ⟨build_snd options tokens, ?_, ?_, ?_⟩
  · rintro taken rest acc rfl hacc
    obtain ⟨a, htakes, rfl⟩ := exists_takes_of_on_takeAll (a := .empty) hacc
    have happend := on_takeAll_append rest htakes
    rw [Nat.zero_add] at happend
    exact ⟨holds_of_takes htakes, happend⟩
  · intro acc hacc
    obtain ⟨a, rfl, hrun⟩ := exists_run_of_on_descend hacc
    obtain ⟨htakes, hopen⟩ := Assembly.run_eq_none_iff.1 hrun
    have hlength : (ofAssembly a).enclosing.length = 0 :=
      (length_enclosing_ofAssembly a).trans hopen
    exact ⟨holds_of_takes htakes, List.length_eq_zero_iff.1 hlength,
      build_of_on_descend_ok hacc⟩
  · intro error acc hacc
    obtain ⟨a, rfl, hrun⟩ := exists_run_of_on_descend hacc
    have htakes := takes_taken_of_run hrun
    have hholds := holds_of_takes htakes
    have hrelease := release_lists (ofAssembly a)
    refine ⟨hholds, on_takeAll_of_takes htakes, _, build_of_on_descend_error hacc, rfl,
      hrelease, ?_, ?_⟩
    · rw [← hholds.tokens_eq]
      exact (hrelease.filterMap _).trans (filterMap_atom?_lists _)
    · rw [← hholds.tokens_eq, ← countP_lists]
      exact hrelease.countP_eq _

/-- The tokens of `(a)`; and those of `(a(b)`, whose outer list is not closed, and which a
limit of one list stops at the inner one. -/
theorem keep_every_form_nested :
    (Holds ⟨[.symbol "a"], [[]]⟩ [.openParen, .atom (.symbol "a")] ∧
        build {} [.openParen, .atom (.symbol "a"), .closeParen] =
          ([], .ok ⟨[.list [.symbol "a"]]⟩)) ∧
      (∃ given, build {} [.openParen, .atom (.symbol "a"), .openParen, .atom (.symbol "b"),
          .closeParen] = (given, .error (.unclosedOpen 1)) ∧
        ((given.flatMap Forms.release).filterMap Node.atom?).Perm [.symbol "a", .symbol "b"] ∧
        (given.flatMap Forms.release).countP (fun n => !n.isLeaf) = 1) ∧
      ∃ given, build ⟨some 1⟩ [.openParen, .atom (.symbol "a"), .openParen,
          .atom (.symbol "b"), .closeParen] = (given, .error (.nestingTooDeep 1 2)) ∧
        ((given.flatMap Forms.release).filterMap Node.atom?).Perm [.symbol "a"] ∧
        (given.flatMap Forms.release).countP (fun n => !n.isLeaf) = 0 := by
  refine ⟨?_, ?_, ?_⟩
  · obtain ⟨-, htaken, hok, -⟩ :=
      keep_every_form [.openParen, .atom (.symbol "a"), .closeParen] {}
    obtain ⟨-, -, hbuild⟩ := hok ⟨[.list [.symbol "a"]], []⟩ rfl
    exact ⟨(htaken [.openParen, .atom (.symbol "a")] [.closeParen] _ rfl rfl).1, hbuild⟩
  · obtain ⟨-, -, -, herror⟩ := keep_every_form [.openParen, .atom (.symbol "a"), .openParen,
      .atom (.symbol "b"), .closeParen] {}
    obtain ⟨-, -, given, hbuild, -, -, hatoms, hlists⟩ := herror (.unclosedOpen 1)
      ⟨[.symbol "a", .list [.symbol "b"]], [[]]⟩ rfl
    exact ⟨given, hbuild, hatoms, hlists⟩
  · obtain ⟨-, -, -, herror⟩ := keep_every_form [.openParen, .atom (.symbol "a"), .openParen,
      .atom (.symbol "b"), .closeParen] ⟨some 1⟩
    obtain ⟨-, -, given, hbuild, -, -, hatoms, hlists⟩ := herror (.nestingTooDeep 1 2)
      ⟨[.symbol "a"], [[]]⟩ rfl
    exact ⟨given, hbuild, hatoms, hlists⟩

end Accumulators

end SExpr
