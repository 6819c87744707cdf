import Mathlib.Data.Nat.Cast.Order.Ring
import Mathlib.Order.Bounds.Image
import SExpr.Proofs.Depth
import SExpr.Proofs.Refusal
import SExpr.Proofs.RoundTrip

/-!
The limit on open lists. The heights that the tokens of a tree go through, prefix
by prefix, have the depth of the tree for their greatest; and a parse succeeds
exactly if all heights are between zero and the limit and the last one is zero.
So a limit asks of a text that the tree it would be read as without one is no
deeper, and a text that fails for another reason fails under a limit as well.
-/

namespace SExpr

/-! ### Heights of prefixes -/

/-- The values that a measure has on the prefixes of a sequence. -/
def profile {α : Type} (measure : List α → Int) (xs : List α) : Set Int :=
  {h | ∃ taken, taken <+: xs ∧ measure taken = h}

section

variable {α : Type} {measure : List α → Int}

theorem mem_profile_self (xs : List α) : measure xs ∈ profile measure xs :=
  ⟨xs, List.prefix_rfl, rfl⟩

theorem forall_mem_profile {xs : List α} {P : Int → Prop} :
    (∀ h ∈ profile measure xs, P h) ↔ ∀ taken, taken <+: xs → P (measure taken) := by
  constructor
  · intro hall taken htaken
    exact hall _ ⟨taken, htaken, rfl⟩
  · rintro hall h ⟨taken, htaken, rfl⟩
    exact hall taken htaken

/-- The prefixes of two sequences one behind the other are those of the first,
and the first with those of the second. -/
theorem profile_append (hadd : ∀ as bs, measure (as ++ bs) = measure as + measure bs)
    (as bs : List α) :
    profile measure (as ++ bs) =
      profile measure as ∪ (fun h => measure as + h) '' profile measure bs := by
  ext h
  constructor
  · rintro ⟨taken, htaken, rfl⟩
    rcases List.prefix_or_prefix_of_prefix htaken (List.prefix_append as bs) with
      hfirst | ⟨more, rfl⟩
    · exact .inl ⟨taken, hfirst, rfl⟩
    · have hmore := (List.prefix_append_right_inj as).1 htaken
      exact .inr ⟨measure more, ⟨more, hmore, rfl⟩, (hadd as more).symm⟩
  · rintro (⟨taken, htaken, rfl⟩ | ⟨_, ⟨more, hmore, rfl⟩, rfl⟩)
    · exact ⟨taken, htaken.trans (List.prefix_append as bs), rfl⟩
    · exact ⟨as ++ more, (List.prefix_append_right_inj as).2 hmore, hadd as more⟩

theorem profile_singleton (hnil : measure [] = 0) (x : α) :
    profile measure [x] = {0, measure [x]} := by
  ext h
  simp [profile, List.prefix_cons_iff, hnil, eq_comm]

end

/-! ### The depth of a tree by its tokens -/

theorem Forms.balanced_tokens (forms : List Node) : Balanced (Forms.tokens forms) :=
  Tree.balanced_of_ofTokens (Tree.ofTokens_tokens (rfl : ({} : Options).maxDepth = none) ⟨forms⟩)

theorem Node.height_tokens (n : Node) : height n.tokens = 0 := by
  simpa [Forms.tokens] using (Forms.balanced_tokens [n]).2

mutual

theorem Node.isGreatest_depth : ∀ n : Node, IsGreatest (profile height n.tokens) n.depth
  | .leaf atom => by
      rw [Node.tokens, profile_singleton height_nil, Node.depth_leaf]
      simp
  | .list children => by
      have hopen : IsGreatest {0, height [.openParen]} 1 := by simp [IsGreatest]
      have hclose : IsGreatest {0, height [.closeParen]} 0 := by simp [IsGreatest]
      have hshift (k : Int) : Monotone fun h => k + h := fun _ _ h => Int.add_le_add_left h k
      -- behind the opening parenthesis everything is one higher
      have hinside := (hshift 1).map_isGreatest
        ((Forms.isGreatest_depth children).union ((hshift 0).map_isGreatest hclose))
      have hvalue : ((Node.list children).depth : Int) =
          max 1 (1 + max (Forms.depth children : Int) (0 + 0)) := by
        rw [Node.depth_list]
        omega
      rw [hvalue, Node.tokens, ← List.singleton_append, profile_append height_append,
        profile_append height_append, profile_singleton height_nil,
        profile_singleton height_nil, (Forms.balanced_tokens children).2]
      exact hopen.union hinside

theorem Forms.isGreatest_depth :
    ∀ forms : List Node, IsGreatest (profile height (Forms.tokens forms)) (Forms.depth forms)
  | [] => by
      simp [Forms.tokens, profile]
  | form :: forms => by
      have hform := Node.isGreatest_depth form
      have hforms := Forms.isGreatest_depth forms
      have hvalue : (Forms.depth (form :: forms) : Int) =
          max (form.depth : Int) (Forms.depth forms) := by
        rw [Forms.depth_cons]
        omega
      rw [hvalue, Forms.tokens, profile_append height_append, form.height_tokens]
      simpa using hform.union hforms

end

namespace Tree

variable {tokens : List Token} {options : Options} {t : Tree}

theorem isGreatest_depth (t : Tree) : IsGreatest (profile height t.tokens) t.depth :=
  Forms.isGreatest_depth t.forms

/-! ### Parses under a limit -/

/-- A parse succeeds exactly if the heights stay between zero and the limit and
come back to zero. -/
theorem exists_ofTokens_iff_profile :
    (∃ t, ofTokens tokens options = .ok t) ↔
      (∀ h ∈ profile height tokens, 0 ≤ h ∧ ∀ limit ∈ options.maxDepth, h ≤ limit) ∧
        height tokens = 0 := by
  constructor
  · rintro ⟨t, ht⟩
    obtain ⟨hnonneg, htotal⟩ := balanced_of_ofTokens ht
    obtain ⟨a, htakes, -⟩ := ofTokens_eq_ok_iff.1 ht
    refine ⟨forall_mem_profile.2 fun taken htaken => ⟨hnonneg taken htaken, ?_⟩, htotal⟩
    intro limit hlimit
    obtain ⟨rest, rfl⟩ := htaken
    obtain ⟨middle, htaken, -⟩ := htakes.exists_of_append
    have hheight : (middle.openLists : Int) = height taken := by
      simpa [Assembly.empty] using htaken.openLists_eq
    have hmost := htaken.openLists_le hlimit (Nat.zero_le limit)
    omega
  · rintro ⟨hprofile, htotal⟩
    rcases ofTokens_cases tokens options with
      ⟨index, error, -, hfirst⟩ | ⟨-, ⟨n, hpos, hheight, -⟩ | ⟨-, ht⟩⟩
    -- a refused token would lead below zero, or above the limit
    · obtain ⟨hzero, hmost⟩ := hprofile _ ⟨tokens.take (index + 1), List.take_prefix _ _, rfl⟩
      rcases hfirst.refused.height_take_succ with hbelow | ⟨limit, hlimit, habove⟩
      · omega
      · have := hmost limit hlimit
        omega
    · omega
    · exact ht

theorem tokens_injective {t t' : Tree} (h : t.tokens = t'.tokens) : t = t' := by
  have ht : ofTokens t.tokens = .ok t := ofTokens_tokens rfl t
  rw [h, ofTokens_tokens rfl] at ht
  cases ht
  rfl

/-- The tree that tokens parse to is the one that flattens to them, if it is no
deeper than the limit. -/
theorem ofTokens_eq_ok_iff_depth :
    ofTokens tokens options = .ok t ↔
      t.tokens = tokens ∧ ∀ limit ∈ options.maxDepth, t.depth ≤ limit := by
  constructor
  · intro h
    have htokens := tokens_of_ofTokens h
    refine ⟨htokens, fun limit hlimit => ?_⟩
    have hprofile := (exists_ofTokens_iff_profile.1 ⟨t, h⟩).1
    rw [← htokens] at hprofile
    exact Int.ofNat_le.1 ((hprofile _ t.isGreatest_depth.1).2 limit hlimit)
  · rintro ⟨rfl, hdepth⟩
    have hbalanced := Forms.balanced_tokens t.forms
    obtain ⟨t', ht'⟩ : ∃ t', ofTokens t.tokens options = .ok t' := by
      refine exists_ofTokens_iff_profile.2 ⟨fun h hmem => ⟨?_, fun limit hlimit => ?_⟩, ?_⟩
      · exact (forall_mem_profile.2 hbalanced.1) h hmem
      · exact (t.isGreatest_depth.2 hmem).trans (Int.ofNat_le.2 (hdepth limit hlimit))
      · exact hbalanced.2
    rw [ht', tokens_injective (tokens_of_ofTokens ht')]

theorem read_eq_ok_iff_depth {text : String} :
    read text options = .ok t ↔
      scan text = .ok t.tokens ∧ ∀ limit ∈ options.maxDepth, t.depth ≤ limit := by
  rw [read_eq_ok_iff]
  constructor
  · rintro ⟨tokens, hscan, hparse⟩
    obtain ⟨rfl, hdepth⟩ := ofTokens_eq_ok_iff_depth.1 hparse
    exact ⟨hscan, hdepth⟩
  · rintro ⟨hscan, hdepth⟩
    exact ⟨t.tokens, hscan, ofTokens_eq_ok_iff_depth.2 ⟨rfl, hdepth⟩⟩

end Tree

/-- What is refused without a limit is refused under each. -/
theorem RefusedAt.of_no_limit {tokens : List Token} {index : Nat} {error : ParseError}
    (h : RefusedAt {} tokens index error) (options : Options) :
    RefusedAt options tokens index error := by
  cases h with
  | unexpectedClose htoken hheight => exact .unexpectedClose htoken hheight
  | nestingTooDeep hlimit _ _ => cases hlimit

namespace Tree

/-- An error that has nothing to do with the limit is the error of a parse
without one. -/
theorem ofTokens_error_of_limit {tokens : List Token} {options : Options} {error : ParseError}
    (h : ofTokens tokens options = .error error) :
    ofTokens tokens = .error error ∨
      ∃ limit ∈ options.maxDepth, ∃ index, error = .nestingTooDeep limit index := by
  have hnone {index : Nat} (h : ∀ other, ¬ RefusedAt options tokens index other)
      (other : ParseError) : ¬ RefusedAt {} tokens index other :=
    fun hrefused => h other (hrefused.of_no_limit options)
  rcases ofTokens_eq_error_iff.1 h with ⟨index, hrefused, hfirst⟩ | ⟨hall, hopen⟩
  · cases hrefused with
    | unexpectedClose htoken hheight =>
        refine .inl (ofTokens_eq_error_iff.2 (.inl ⟨index, .unexpectedClose htoken hheight, ?_⟩))
        exact fun earlier hearlier => hnone (hfirst earlier hearlier)
    | nestingTooDeep hlimit _ _ => exact .inr ⟨_, hlimit, index, rfl⟩
  · exact .inl (ofTokens_eq_error_iff.2 (.inr ⟨fun index => hnone (hall index), hopen⟩))

theorem read_eq_error_iff {text : String} {options : Options} {error : ReadError} :
    read text options = .error error ↔
      (∃ fault, scan text = .error fault ∧ error = .scan fault) ∨
        ∃ tokens refusal, scan text = .ok tokens ∧
          ofTokens tokens options = .error refusal ∧ error = .parse refusal := by
  unfold read
  split
  next fault hscan => simp [hscan, eq_comm]
  next tokens hscan =>
    split
    next refusal hparse => simp [hscan, hparse, eq_comm]
    next t hparse => simp [hscan, hparse]

theorem read_error_of_limit {text : String} {limit : Nat} {error : ReadError}
    (h : read text ⟨some limit⟩ = .error error) :
    read text = .error error ∨ ∃ index, error = .parse (.nestingTooDeep limit index) := by
  rcases read_eq_error_iff.1 h with ⟨fault, hscan, rfl⟩ | ⟨tokens, refusal, hscan, hparse, rfl⟩
  · exact .inl (read_eq_error_iff.2 (.inl ⟨fault, hscan, rfl⟩))
  · rcases ofTokens_error_of_limit hparse with hparse | ⟨_, hlimit, index, rfl⟩
    · exact .inl (read_eq_error_iff.2 (.inr ⟨tokens, refusal, hscan, hparse, rfl⟩))
    · cases hlimit
      exact .inr ⟨index, rfl⟩

/-- A limit accepts exactly the trees that are read without one and are no deeper,
so a larger limit accepts no fewer. A deeper tree is refused for its depth, and a
text that is read as no tree has the same error or is refused for its depth. -/
theorem read_limit_iff_depth (text : String) (limit : Nat) :
    (∀ t, read text ⟨some limit⟩ = .ok t ↔ read text = .ok t ∧ t.depth ≤ limit) ∧
      (∀ t, read text = .ok t → limit < t.depth →
        ∃ index, read text ⟨some limit⟩ = .error (.parse (.nestingTooDeep limit index))) ∧
      (∀ error, read text = .error error →
        read text ⟨some limit⟩ = .error error ∨
          ∃ index, read text ⟨some limit⟩ = .error (.parse (.nestingTooDeep limit index))) ∧
      ∀ t, read text ⟨some limit⟩ = .ok t →
        (∀ larger, limit ≤ larger → read text ⟨some larger⟩ = .ok t) ∧ read text = .ok t := by
  have hlimit (limit : Nat) (t : Tree) :
      read text ⟨some limit⟩ = .ok t ↔ read text = .ok t ∧ t.depth ≤ limit := by
    rw [read_eq_ok_iff_depth, read_eq_ok_iff_scan]
    simp
  refine ⟨hlimit limit, ?_, ?_, ?_⟩
  · intro t hread hdeep
    cases hlimited : read text ⟨some limit⟩ with
    | ok t' =>
        obtain ⟨hread', hdepth⟩ := (hlimit limit t').1 hlimited
        cases hread.symm.trans hread'
        omega
    | error error =>
        rcases read_error_of_limit hlimited with hread' | ⟨index, rfl⟩
        · cases hread.symm.trans hread'
        · exact ⟨index, rfl⟩
  · intro error hread
    cases hlimited : read text ⟨some limit⟩ with
    | ok t' => cases hread.symm.trans ((hlimit limit t').1 hlimited).1
    | error error' =>
        rcases read_error_of_limit hlimited with hread' | ⟨index, rfl⟩
        · cases hread.symm.trans hread'
          exact .inl rfl
        · exact .inr ⟨index, rfl⟩
  · intro t hlimited
    obtain ⟨hread, hdepth⟩ := (hlimit limit t).1 hlimited
    exact ⟨fun larger hle => (hlimit larger t).2 ⟨hread, hdepth.trans hle⟩, hread⟩

/-- A list within a list is one list too deep for a limit of one. -/
theorem read_limit_iff_depth_nested :
    (∃ t, read "(a(b))" = .ok t ∧ 1 < t.depth) ∧
      ∃ index, read "(a(b))" ⟨some 1⟩ = .error (.parse (.nestingTooDeep 1 index)) := by
  have hread : read "(a(b))" = .ok ⟨[.list [.symbol "a", .list [.symbol "b"]]]⟩ := by
    decide +kernel
  have hdeep : 1 < (Tree.mk [.list [.symbol "a", .list [.symbol "b"]]]).depth := by
    decide +kernel
  exact ⟨⟨_, hread, hdeep⟩, (read_limit_iff_depth "(a(b))" 1).2.1 _ hread hdeep⟩

end Tree

end SExpr
