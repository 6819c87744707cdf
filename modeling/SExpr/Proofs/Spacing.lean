import SExpr.Proofs.Concatenation
import SExpr.Proofs.Language

/-!
One more space in a text. A space that cuts no run and takes no operator from what follows
it is one more blank among the lexemes, also where an operator's own space stands next to
it: then the text is read as if the new space came behind that one. So the text keeps its
tokens and its errors, and only what stands behind the space moves.
-/

namespace SExpr

/-- An error of a text with one more character at a place. -/
def ScanError.moved (place : Nat) (error : ScanError) : ScanError :=
  if place ≤ error.offset then error.shift 1 else error

/-- An error of a read with one more space at a place of the text. -/
def ReadError.moved (place : Nat) : ReadError → ReadError
  | scan error => scan (error.moved place)
  | parse error => parse error

namespace ScanError

theorem moved_shift (error : ScanError) (chars : Nat) :
    (error.shift chars).moved chars = (error.shift 1).shift chars := by
  simp only [moved, shift, Nat.le_add_right, if_true, mk.injEq, true_and]
  omega

theorem moved_of_lt {error : ScanError} {place : Nat} (h : error.offset < place) :
    error.moved place = error :=
  if_neg (Nat.not_le.2 h)

/-- Where no error stands, an error moves as it would one place further on. -/
theorem moved_succ {error : ScanError} {place : Nat} (h : error.offset ≠ place) :
    error.moved (place + 1) = error.moved place := by
  have hiff : place + 1 ≤ error.offset ↔ place ≤ error.offset := by omega
  simp only [moved, hiff]

end ScanError

/-! ### A space between two texts -/

namespace Lexeme

theorem getLast?_of_bareOperator {cs : List Char} {op : Operator}
    (h : (ofChars cs).getLast? = some (bareOperator op)) : cs.getLast? = some op.toChar := by
  obtain ⟨earlier, hchars⟩ := List.getLast?_eq_some_iff.1 h
  rw [← flatMap_chars_ofChars cs, hchars, List.flatMap_append, List.flatMap_singleton, chars,
    List.getLast?_append]
  rfl

theorem ofChars_space (cs : List Char) : ofChars (' ' :: cs) = blank :: ofChars cs := by
  have hfits : blank.Fits cs := trivial
  exact ofChars_of_fits hfits

/-- A space behind a text joins nothing of it, unless an operator takes it. -/
theorem ofChars_append_space {as : List Char}
    (hop : ∀ op : Operator, as.getLast? ≠ some op.toChar) (bs : List Char) :
    ofChars (as ++ ' ' :: bs) = ofChars as ++ ofChars (' ' :: bs) := by
  refine ofChars_append (fun a _ b hb => ?_) fun op hlast => ?_
  · obtain rfl := Option.some.inj hb
    exact apart_space.not_joins_right
  · exact absurd (getLast?_of_bareOperator hlast) (hop op)

end Lexeme

theorem scanErrors_space (cs : List Char) :
    scanErrors (' ' :: cs) = (scanErrors cs).map (ScanError.shift 1) := by
  have hbehind := Placed.errors_row_add 1 0 (Lexeme.ofChars cs)
  rw [scanErrors, Lexeme.ofChars_space, Placed.row, List.filterMap_cons]
  exact hbehind

theorem scanTokens_space (cs : List Char) : scanTokens (' ' :: cs) = scanTokens cs := by
  rw [scanTokens, Lexeme.ofChars_space, List.filterMap_cons]
  rfl

/-- All errors of a text stand before its end. -/
theorem map_moved_scanErrors (cs : List Char) :
    (scanErrors cs).map (ScanError.moved cs.length) = scanErrors cs := by
  refine (List.map_congr_left fun error herror => ?_).trans (List.map_id _)
  exact ScanError.moved_of_lt (faultAt_iff_mem_scanErrors.2 herror).lt_length

/-- Behind a text that ends in no operator, a space moves the errors that follow it. -/
theorem outlook_append_space {as bs : List Char}
    (hjoins : ∀ a ∈ as.getLast?, ∀ b ∈ bs.head?, ¬ Joins a b)
    (hop : ∀ op : Operator, as.getLast? ≠ some op.toChar) :
    scanErrors (as ++ ' ' :: bs) = (scanErrors (as ++ bs)).map (ScanError.moved as.length) ∧
      scanTokens (as ++ ' ' :: bs) = scanTokens (as ++ bs) := by
  have hchars : Lexeme.ofChars (as ++ bs) = Lexeme.ofChars as ++ Lexeme.ofChars bs :=
    Lexeme.ofChars_append hjoins fun op hlast =>
      absurd (Lexeme.getLast?_of_bareOperator hlast) (hop op)
  have hspaced := Lexeme.ofChars_append_space hop bs
  constructor
  · have hmoved : ScanError.moved as.length ∘ ScanError.shift as.length =
        ScanError.shift as.length ∘ ScanError.shift 1 :=
      funext fun error => error.moved_shift as.length
    rw [scanErrors_append hspaced, scanErrors_append hchars, scanErrors_space, List.map_append,
      map_moved_scanErrors, List.map_map, List.map_map, hmoved]
  · rw [scanTokens_append hspaced, scanTokens_append hchars, scanTokens_space]

/-- A space between two texts moves the errors that follow it, where it cuts no run and
comes behind no operator that has no space of its own. -/
theorem outlook_space_between {as bs : List Char}
    (hjoins : ∀ a ∈ as.getLast?, ∀ b ∈ bs.head?, ¬ Joins a b)
    (hop : ∀ a ∈ as.getLast?, isOperator a → bs.head? = some ' ') :
    scanErrors (as ++ ' ' :: bs) = (scanErrors (as ++ bs)).map (ScanError.moved as.length) ∧
      scanTokens (as ++ ' ' :: bs) = scanTokens (as ++ bs) := by
  by_cases hlast : ∃ op : Operator, as.getLast? = some op.toChar
  · obtain ⟨op, hlast⟩ := hlast
    obtain ⟨rest, rfl⟩ := List.head?_eq_some_iff.1 (hop _ hlast (by simp [isOperator]))
    -- the operator keeps its space, and the new one comes behind that
    have hend : (as ++ [' ']).getLast? = some ' ' := by simp
    have hapart : ∀ a ∈ (as ++ [' ']).getLast?, ∀ b ∈ rest.head?, ¬ Joins a b := by
      intro a ha b _
      obtain rfl := Option.some.inj (hend.symm.trans ha)
      exact apart_space.not_joins_left
    have hspaced := outlook_append_space hapart fun other heq =>
      other.toChar_class.1 (Option.some.inj (hend.symm.trans heq)).symm
    rw [List.append_assoc, List.append_assoc, List.length_append] at hspaced
    refine ⟨hspaced.1.trans (List.map_congr_left fun error herror => ?_), hspaced.2⟩
    refine ScanError.moved_succ fun hplace => ?_
    -- no error stands at a space
    have hspace : (as ++ ' ' :: rest)[error.offset]? = some ' ' := by simp [hplace]
    exact FaultAt.not_of_plain hspace (.inl rfl) (faultAt_iff_mem_scanErrors.2 herror)
  · exact outlook_append_space hjoins fun op heq => hlast ⟨op, heq⟩

/-! ### Reading -/

/-- A text with the tokens of another and its errors elsewhere is scanned as the other. -/
theorem scan_eq_mapError {text other : String} {f : ScanError → ScanError}
    (herrors : scanErrors text.toList = (scanErrors other.toList).map f)
    (htokens : scanTokens text.toList = scanTokens other.toList) :
    scan text = (scan other).mapError f := by
  rw [scan_eq_of_outlook (g := id) herrors htokens, Except.map_id]
  rfl

/-- One more space between two characters of a text changes nothing of its tree or of a
parse error, unless the two are letters or digits of one run or the first is an operator
that has no space; and of a scan error only the place changes, if it is behind the space. -/
theorem Tree.read_space_between (a b : String) (options : Options)
    (hjoins : ∀ x ∈ a.toList.getLast?, ∀ y ∈ b.toList.head?, ¬ Joins x y)
    (hop : ∀ x ∈ a.toList.getLast?, isOperator x → b.toList.head? = some ' ') :
    Tree.read (a ++ " " ++ b) options =
      (Tree.read (a ++ b) options).mapError (ReadError.moved a.length) := by
  have hspaced : (a ++ " " ++ b).toList = a.toList ++ ' ' :: b.toList := by simp
  have hscan : scan (a ++ " " ++ b) = (scan (a ++ b)).mapError (ScanError.moved a.length) := by
    obtain ⟨herrors, htokens⟩ := outlook_space_between hjoins hop
    apply scan_eq_mapError
    · rw [hspaced, herrors, String.toList_append, String.length_toList]
    · rw [hspaced, htokens, String.toList_append]
  rw [Tree.read, Tree.read, hscan]
  cases scan (a ++ b) with
  | error error => rfl
  | ok tokens =>
      simp only [Except.mapError]
      cases Tree.ofTokens tokens options <;> rfl

/-- Another space before that of an operator, and an error that moves with it. -/
theorem Tree.read_space_between_operator :
    Tree.read ("(+" ++ " é") = .error (.scan ⟨.unrecognized 'é', 3⟩) ∧
      Tree.read ("(+" ++ " " ++ " é") = .error (.scan ⟨.unrecognized 'é', 4⟩) := by
  have hread : Tree.read ("(+" ++ " é") = .error (.scan ⟨.unrecognized 'é', 3⟩) := by
    decide +kernel
  have hspaced := Tree.read_space_between "(+" " é" {} (by simp [Joins]) (by simp)
  refine ⟨hread, ?_⟩
  rw [hspaced, hread]
  rfl

end SExpr
