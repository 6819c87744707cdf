import SExpr.Reader
import SExpr.Proofs.Flattening
import SExpr.Proofs.Printing

/-!
Printing against reading. A tree that was built by hand may hold symbols which
no text reads as; with all its symbols readable it is read back from its own
text, whatever its shape. A tree that was read has no other symbols, so the text
of a tree is an input for the reader again exactly if the tree could have been
its output.
-/

namespace SExpr

/-- Whether a text is read as the atom; a symbol has to be made of letters. -/
def Atom.Readable : Atom → Prop
  | symbol text => text.toList ≠ [] ∧ ∀ c ∈ text.toList, c.isAlpha
  | integer _ => True
  | operator _ => True

/-- All atoms out of a scan are readable. -/
theorem readable_of_mem_scanTokens {cs : List Char} {atom : Atom}
    (h : .atom atom ∈ scanTokens cs) : atom.Readable := by
  obtain ⟨lexeme, hlexeme, hkept⟩ := List.mem_filterMap.1 h
  obtain ⟨rest, hfits⟩ := Lexeme.exists_fits_of_mem_ofChars hlexeme
  cases Lexeme.keeps_of_kept? hkept with
  | letters run => simpa [Atom.Readable] using And.intro hfits.1 hfits.2.1
  | digits hword => trivial
  | operator op => trivial

namespace Tree

/-- A text is read by scanning it and parsing the tokens. -/
theorem read_eq_ok_iff {text : String} {options : Options} {t : Tree} :
    read text options = .ok t ↔
      ∃ tokens, scan text = .ok tokens ∧ ofTokens tokens options = .ok t := by
  unfold read
  split
  next error hscan => simp [hscan]
  next tokens hscan =>
    split
    next error hparse => simp [hscan, hparse]
    next tree hparse => simp [hscan, hparse]

/-- What is read is the tree of the tokens that were scanned. -/
theorem scan_of_read {text : String} {options : Options} {t : Tree}
    (h : read text options = .ok t) : scan text = .ok t.tokens := by
  obtain ⟨tokens, hscan, hparse⟩ := read_eq_ok_iff.1 h
  rw [hscan, tokens_of_ofTokens hparse]

theorem read_eq_ok_iff_scan {text : String} {t : Tree} :
    read text = .ok t ↔ scan text = .ok t.tokens := by
  constructor
  · exact scan_of_read
  · intro h
    exact read_eq_ok_iff.2 ⟨t.tokens, h, ofTokens_tokens rfl t⟩

/-- A tree that was read holds readable atoms only. -/
theorem readable_of_read {text : String} {options : Options} {t : Tree}
    (h : read text options = .ok t) : ∀ atom ∈ t.atoms, atom.Readable := by
  intro atom hatom
  have hscan := (scan_eq_ok_iff.1 (scan_of_read h)).2
  rw [Tree.atoms, ← Forms.filterMap_atom?_tokens] at hatom
  obtain ⟨token, htoken, hatom⟩ := List.mem_filterMap.1 hatom
  obtain rfl := Token.atom?_eq_some_iff.1 hatom
  have hmem : .atom atom ∈ scanTokens text.toList := by
    rw [hscan]
    exact htoken
  exact readable_of_mem_scanTokens hmem

/-- With readable symbols only, the text of a tree is scanned as its tokens. -/
theorem scan_text {t : Tree} (h : ∀ atom ∈ t.atoms, atom.Readable) :
    scan t.text = .ok t.tokens := by
  have hspells := Forms.spells_chars (fun text => [.atom (.symbol text)]) t.forms
    fun text hmem => by
      obtain ⟨hne, hletters⟩ := h _ hmem
      simpa using Spells.letters hne hletters
  have hexpand : Token.expand (fun text => [.atom (.symbol text)]) = fun token => [token] := by
    funext token
    rcases token with _ | _ | _ | _ | _ <;> rfl
  rw [hexpand, List.flatMap_singleton'] at hspells
  rw [scan_eq_ok_iff_spells]
  simpa [Tree.text, Tree.chars, Tree.tokens] using hspells

/-- A tree is read back from its own text exactly if its atoms are readable; so
are those of every tree that was read from some text. -/
theorem read_inverts_text :
    (∀ t : Tree, read t.text = .ok t ↔ ∀ atom ∈ t.atoms, atom.Readable) ∧
      ∀ text options t, read text options = .ok t →
        (∀ atom ∈ t.atoms, atom.Readable) ∧ read t.text = .ok t := by
  have hback (t : Tree) (h : ∀ atom ∈ t.atoms, atom.Readable) : read t.text = .ok t :=
    read_eq_ok_iff_scan.2 (scan_text h)
  constructor
  · intro t
    exact ⟨readable_of_read, hback t⟩
  · intro text options t hread
    have hatoms := readable_of_read hread
    exact ⟨hatoms, hback t hatoms⟩

end Tree

end SExpr
