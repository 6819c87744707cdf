import Mathlib.Data.List.Forall2
import SExpr.Serial.Codec

/-!
The interchange format of tokens and trees. For each type it is said which values decode
to what: the encoding, and besides it only values in which a variant that holds nothing is
written as an object with null behind its name. Encoding what was decoded gives the value
back with these variants written by their names alone (`Value.plain`), and nothing else
changed.
-/

namespace SExpr

/-! ### Plain values -/

namespace Value

/-- Whether a name is that of a variant that holds nothing. -/
def isUnitName (name : String) : Bool :=
  name = "Open" || name = "Close" || (Operator.ofName? name).isSome

/-- A variant that holds nothing, written by its name alone. -/
def shorten : Value → Value
  | .object [(name, .null)] => if isUnitName name then .unit name else .tagged name .null
  | v => v

mutual

/-- A value with every variant that holds nothing written by its name alone. -/
def plain : Value → Value
  | .array items => .array (plainItems items)
  | .object fields => shorten (.object (plainFields fields))
  | v => v

def plainItems : List Value → List Value
  | [] => []
  | item :: items => item.plain :: plainItems items

def plainFields : List (String × Value) → List (String × Value)
  | [] => []
  | (key, v) :: fields => (key, v.plain) :: plainFields fields

end

@[simp] theorem plain_null : null.plain = null := by
  rw [plain] <;> simp

@[simp] theorem plain_natural (n : Nat) : (natural n).plain = natural n := by
  rw [plain] <;> simp

@[simp] theorem plain_string (s : String) : (string s).plain = string s := by
  rw [plain] <;> simp

@[simp] theorem plain_array (items : List Value) :
    (array items).plain = array (plainItems items) := by
  rw [plain]

theorem plain_tagged (name : String) (content : Value) :
    (tagged name content).plain = shorten (tagged name content.plain) := by
  rw [tagged, plain, plainFields, plainFields, tagged]

theorem plain_tagged_null {name : String} (h : isUnitName name) :
    (tagged name null).plain = unit name := by
  rw [plain_tagged, plain_null, tagged, shorten, if_pos h]

/-- A variant that holds something keeps its name, and its content becomes plain. -/
theorem plain_tagged_of_ne {name : String} {content content' : Value}
    (h : content.plain = content') (hne : content' ≠ null) :
    (tagged name content).plain = tagged name content' := by
  rw [plain_tagged, h]
  cases content' with
  | null => exact absurd rfl hne
  | _ => rfl

end Value

/-! ### Values that decode -/

/-- A value shows a variant as an object, or by its name alone if nothing is behind it. -/
theorem Value.variant?_eq_some_iff {v content : Value} {name : String} :
    v.variant? = some (name, content) ↔
      v = .tagged name content ∨ (v = .unit name ∧ content = .null) := by
  constructor
  · intro h
    unfold variant? at h
    split at h <;> cases h
    · exact .inr ⟨rfl, rfl⟩
    · exact .inl rfl
  · rintro (rfl | ⟨rfl, rfl⟩) <;> rfl

theorem Value.text?_eq_some_iff {v : Value} {s : String} : v.text? = some s ↔ v = .string s := by
  cases v <;> simp [text?]

namespace Operator

theorem ofName?_eq_some_iff {name : String} {op : Operator} :
    ofName? name = some op ↔ name = op.name := by
  constructor
  · intro h
    simpa [eq_comm] using List.find?_some h
  · rintro rfl
    exact ofName?_name op

theorem decode?_eq_some_iff {v : Value} {op : Operator} :
    decode? v = some op ↔ v = .unit op.name ∨ v = .tagged op.name .null := by
  constructor
  · intro h
    unfold decode? at h
    split at h
    case h_1 name hvariant =>
      obtain rfl := ofName?_eq_some_iff.1 h
      rcases Value.variant?_eq_some_iff.1 hvariant with rfl | ⟨rfl, -⟩
      · exact .inr rfl
      · exact .inl rfl
    case h_2 => cases h
  · rintro (rfl | rfl) <;> simp [decode?]

end Operator

namespace Atom

theorem decode?_eq_some_iff {v : Value} {a : Atom} :
    decode? v = some a ↔
      match a with
      | symbol text => v = .tagged "Symbol" (.string text)
      | integer value => v = .tagged "Integer" (.natural value.toNat)
      | operator op => ∃ content, v = .tagged "Operator" content ∧
          Operator.decode? content = some op := by
  constructor
  · intro h
    unfold decode? at h
    split at h
    case h_1 content hvariant =>
      obtain ⟨text, htext, rfl⟩ := Option.map_eq_some_iff.1 h
      obtain rfl := Value.text?_eq_some_iff.1 htext
      simpa using Value.variant?_eq_some_iff.1 hvariant
    case h_2 content hvariant =>
      obtain ⟨value, hvalue, rfl⟩ := Option.map_eq_some_iff.1 h
      obtain rfl := Value.word?_eq_some_iff.1 hvalue
      simpa using Value.variant?_eq_some_iff.1 hvariant
    case h_3 content hvariant =>
      obtain ⟨op, hop, rfl⟩ := Option.map_eq_some_iff.1 h
      refine ⟨content, ?_, hop⟩
      rcases Value.variant?_eq_some_iff.1 hvariant with hv | ⟨-, rfl⟩
      · exact hv
      · cases hop
    case h_4 => cases h
  · intro h
    cases a with
    | symbol text =>
        obtain rfl := h
        rfl
    | integer value =>
        obtain rfl := h
        exact decode?_encode (integer value)
    | operator op =>
        obtain ⟨content, rfl, hop⟩ := h
        simp [decode?, hop]

/-- No atom is written by a name alone, and none has the name of a parenthesis. -/
theorem exists_tagged_of_decode? {v : Value} {a : Atom} (h : decode? v = some a) :
    ∃ name content, v = .tagged name content ∧ name ≠ "Open" ∧ name ≠ "Close" := by
  have hv := decode?_eq_some_iff.1 h
  cases a with
  | symbol text => exact ⟨_, _, hv, by decide, by decide⟩
  | integer value => exact ⟨_, _, hv, by decide, by decide⟩
  | operator op =>
      obtain ⟨content, hv, -⟩ := hv
      exact ⟨_, _, hv, by decide, by decide⟩

end Atom

namespace Token

theorem decode?_eq_some_iff {v : Value} {t : Token} :
    decode? v = some t ↔
      match t with
      | openParen => v = .unit "Open" ∨ v = .tagged "Open" .null
      | closeParen => v = .unit "Close" ∨ v = .tagged "Close" .null
      | atom a => Atom.decode? v = some a := by
  constructor
  · intro h
    unfold decode? at h
    split at h
    case h_1 hvariant =>
      cases h
      simpa [or_comm] using Value.variant?_eq_some_iff.1 hvariant
    case h_2 hvariant =>
      cases h
      simpa [or_comm] using Value.variant?_eq_some_iff.1 hvariant
    case h_3 =>
      obtain ⟨a, ha, rfl⟩ := Option.map_eq_some_iff.1 h
      exact ha
  · intro h
    cases t with
    | openParen => rcases h with rfl | rfl <;> rfl
    | closeParen => rcases h with rfl | rfl <;> rfl
    | atom a =>
        have ha : Atom.decode? v = some a := h
        obtain ⟨name, content, rfl, hopen, hclose⟩ := Atom.exists_tagged_of_decode? ha
        simp [decode?, hopen, hclose, ha]

end Token

theorem Node.decode?_eq_some_iff {v : Value} {n : Node} :
    Node.decode? v = some n ↔
      match n with
      | .leaf a => ∃ content, v = .tagged "Leaf" content ∧ Atom.decode? content = some a
      | .list children => ∃ items, v = .tagged "List" (.array items) ∧
          Forms.decode? items = some children := by
  constructor
  · intro h
    unfold Node.decode? at h
    split at h
    case h_1 content =>
      obtain ⟨a, ha, rfl⟩ := Option.map_eq_some_iff.1 h
      exact ⟨content, rfl, ha⟩
    case h_2 items =>
      obtain ⟨children, hchildren, rfl⟩ := Option.map_eq_some_iff.1 h
      exact ⟨items, rfl, hchildren⟩
    case h_3 => cases h
  · intro h
    cases n with
    | leaf a =>
        obtain ⟨content, rfl, ha⟩ := h
        rw [Value.tagged, Node.decode?, ha]
        rfl
    | list children =>
        obtain ⟨items, rfl, hchildren⟩ := h
        rw [Value.tagged, Node.decode?, hchildren]
        rfl

theorem Forms.decode?_eq_some_iff {items : List Value} {forms : List Node} :
    Forms.decode? items = some forms ↔
      List.Forall₂ (fun item form => Node.decode? item = some form) items forms := by
  induction items generalizing forms with
  | nil => simp [Forms.decode?, eq_comm]
  | cons item items ih =>
      rw [Forms.decode?, List.forall₂_cons_left_iff]
      simp only [← ih]
      cases Node.decode? item <;> cases Forms.decode? items <;> simp [eq_comm]

theorem Tree.decode?_eq_some_iff {v : Value} {t : Tree} :
    Tree.decode? v = some t ↔
      ∃ items, v = .array items ∧ Forms.decode? items = some t.forms := by
  constructor
  · intro h
    unfold Tree.decode? at h
    split at h
    case h_1 items =>
      obtain ⟨forms, hforms, rfl⟩ := Option.map_eq_some_iff.1 h
      exact ⟨items, rfl, hforms⟩
    case h_2 => cases h
  · rintro ⟨items, rfl, hforms⟩
    rw [Tree.decode?, hforms]
    rfl

/-! ### Decoding what was encoded -/

theorem Token.decode?_encode (t : Token) : Token.decode? t.encode = some t := by
  cases t with
  | openParen => rfl
  | closeParen => rfl
  | atom a => exact Token.decode?_eq_some_iff.2 a.decode?_encode

mutual

theorem Node.decode?_encode : ∀ n : Node, Node.decode? n.encode = some n
  | .leaf a => Node.decode?_eq_some_iff.2 ⟨a.encode, rfl, a.decode?_encode⟩
  | .list children =>
      Node.decode?_eq_some_iff.2 ⟨Forms.encode children, rfl, Forms.decode?_encode children⟩

theorem Forms.decode?_encode : ∀ forms : List Node,
    Forms.decode? (Forms.encode forms) = some forms
  | [] => rfl
  | form :: forms => by
      rw [Forms.encode, Forms.decode?, Node.decode?_encode form, Forms.decode?_encode forms]

end

theorem Tree.decode?_encode (t : Tree) : Tree.decode? t.encode = some t :=
  Tree.decode?_eq_some_iff.2 ⟨Forms.encode t.forms, rfl, Forms.decode?_encode t.forms⟩

theorem Forms.encode_eq_map (forms : List Node) : Forms.encode forms = forms.map Node.encode := by
  induction forms with
  | nil => rfl
  | cons form forms ih => rw [Forms.encode, ih, List.map_cons]

/-! ### Encoding what was decoded -/

theorem Operator.plain_of_decode? {v : Value} {op : Operator} (h : Operator.decode? v = some op) :
    v.plain = op.encode := by
  rcases Operator.decode?_eq_some_iff.1 h with rfl | rfl
  · exact Value.plain_string op.name
  · exact Value.plain_tagged_null (by simp [Value.isUnitName])

theorem Atom.plain_of_decode? {v : Value} {a : Atom} (h : Atom.decode? v = some a) :
    v.plain = a.encode := by
  have hv := Atom.decode?_eq_some_iff.1 h
  cases a with
  | symbol text =>
      obtain rfl := hv
      exact Value.plain_tagged_of_ne (Value.plain_string text) nofun
  | integer value =>
      obtain rfl := hv
      exact Value.plain_tagged_of_ne (Value.plain_natural value.toNat) nofun
  | operator op =>
      obtain ⟨content, rfl, hop⟩ := hv
      exact Value.plain_tagged_of_ne (Operator.plain_of_decode? hop) nofun

theorem Token.plain_of_decode? {v : Value} {t : Token} (h : Token.decode? v = some t) :
    v.plain = t.encode := by
  have hv := Token.decode?_eq_some_iff.1 h
  cases t with
  | openParen =>
      rcases hv with rfl | rfl
      · exact Value.plain_string "Open"
      · exact Value.plain_tagged_null rfl
  | closeParen =>
      rcases hv with rfl | rfl
      · exact Value.plain_string "Close"
      · exact Value.plain_tagged_null rfl
  | atom a => exact Atom.plain_of_decode? hv

mutual

theorem Node.plain_of_decode? : ∀ (n : Node) {v : Value},
    Node.decode? v = some n → v.plain = n.encode
  | .leaf a, v, h => by
      obtain ⟨content, rfl, ha⟩ := Node.decode?_eq_some_iff.1 h
      have hne : a.encode ≠ .null := by cases a <;> exact nofun
      exact Value.plain_tagged_of_ne (Atom.plain_of_decode? ha) hne
  | .list children, v, h => by
      obtain ⟨items, rfl, hchildren⟩ := Node.decode?_eq_some_iff.1 h
      have hitems := Forms.plain_of_decode? children hchildren
      refine Value.plain_tagged_of_ne ?_ nofun
      rw [Value.plain_array, hitems]

theorem Forms.plain_of_decode? : ∀ (forms : List Node) {items : List Value},
    Forms.decode? items = some forms → Value.plainItems items = Forms.encode forms
  | [], items, h => by
      obtain rfl := List.forall₂_nil_right_iff.1 (Forms.decode?_eq_some_iff.1 h)
      rfl
  | form :: forms, items, h => by
      obtain ⟨item, rest, hform, hforms, rfl⟩ :=
        List.forall₂_cons_right_iff.1 (Forms.decode?_eq_some_iff.1 h)
      have hrest := Forms.plain_of_decode? forms (Forms.decode?_eq_some_iff.2 hforms)
      rw [Value.plainItems, Node.plain_of_decode? form hform, hrest, Forms.encode]

end

theorem Tree.plain_of_decode? {v : Value} {t : Tree} (h : Tree.decode? v = some t) :
    v.plain = t.encode := by
  obtain ⟨items, rfl, hforms⟩ := Tree.decode?_eq_some_iff.1 h
  rw [Value.plain_array, Forms.plain_of_decode? t.forms hforms, Tree.encode]

/-- Tokens and trees are decoded from what they are encoded as, a tree from the array of its
forms; and the encoding of what a value decodes to is the value with every variant that holds
nothing written by its name alone. -/
theorem encode_spells_plainly :
    (∀ x : Token, Token.decode? x.encode = some x) ∧
      (∀ t : Tree, Tree.decode? t.encode = some t ∧ t.encode = .array (t.forms.map Node.encode)) ∧
        (∀ v x, Token.decode? v = some x → x.encode = v.plain) ∧
          ∀ v t, Tree.decode? v = some t → t.encode = v.plain := by
  refine ⟨Token.decode?_encode, fun t => ⟨t.decode?_encode, ?_⟩, ?_, ?_⟩
  · rw [Tree.encode, Forms.encode_eq_map]
  · exact fun v x h => (Token.plain_of_decode? h).symm
  · exact fun v t h => (Tree.plain_of_decode? h).symm

/-- An operator written as an object with null, next to a symbol with the same name. -/
theorem encode_spells_plainly_operator :
    Token.decode? (.tagged "Close" .null) = some .closeParen ∧
      Token.closeParen.encode = Value.plain (.tagged "Close" .null) ∧
        Tree.decode? (.array [.tagged "Leaf" (.tagged "Operator" (.tagged "Plus" .null)),
            .tagged "Leaf" (.tagged "Symbol" (.string "Plus"))]) =
          some ⟨[.operator .plus, .symbol "Plus"]⟩ ∧
        Tree.encode ⟨[.operator .plus, .symbol "Plus"]⟩ =
          Value.plain (.array [.tagged "Leaf" (.tagged "Operator" (.tagged "Plus" .null)),
            .tagged "Leaf" (.tagged "Symbol" (.string "Plus"))]) := by
  obtain ⟨-, -, htoken, htree⟩ := encode_spells_plainly
  have hclose : Token.decode? (.tagged "Close" .null) = some .closeParen := rfl
  have hforms : Tree.decode? (.array [.tagged "Leaf" (.tagged "Operator" (.tagged "Plus" .null)),
      .tagged "Leaf" (.tagged "Symbol" (.string "Plus"))]) =
        some ⟨[.operator .plus, .symbol "Plus"]⟩ := rfl
  exact ⟨hclose, htoken _ _ hclose, hforms, htree _ _ hforms⟩

end SExpr
