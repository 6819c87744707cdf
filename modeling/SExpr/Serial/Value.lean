import SExpr.Word

/-!
Values of the interchange format. A variant of a type is written by its name:
as a string when it holds nothing, and otherwise as an object with that name as
its only key and the content behind it.
-/

namespace SExpr

inductive Value where
  | null
  | bool (b : Bool)
  /-- A number written with digits only. -/
  | natural (n : Nat)
  /-- Any other number, as it is written. -/
  | number (spelling : String)
  | string (s : String)
  | array (items : List Value)
  /-- An object; no key occurs twice. -/
  | object (fields : List (String × Value))

namespace Value

/-- A variant that holds nothing. -/
def unit (name : String) : Value := string name

def tagged (name : String) (content : Value) : Value := object [(name, content)]

/-- The name and the content of a variant; a name alone stands for a variant
whose content is null. -/
def variant? : Value → Option (String × Value)
  | string name => some (name, null)
  | object [(name, content)] => some (name, content)
  | _ => none

@[simp] theorem variant?_unit (name : String) :
    (unit name).variant? = some (name, null) := rfl

@[simp] theorem variant?_tagged (name : String) (content : Value) :
    (tagged name content).variant? = some (name, content) := rfl

def field? (key : String) : Value → Option Value
  | object fields => fields.lookup key
  | _ => none

def text? : Value → Option String
  | string s => some s
  | _ => none

def items? : Value → Option (List Value)
  | array items => some items
  | _ => none

/-- A character is a string of length one. -/
def char? : Value → Option Char
  | string s =>
    match s.toList with
    | [c] => some c
    | _ => none
  | _ => none

/-- A number is a 64-bit word by its spelling and its size. -/
def word? : Value → Option UInt64
  | natural n => Word.ofNat? n
  | _ => none

theorem word?_eq_some_iff {v : Value} {w : UInt64} :
    v.word? = some w ↔ v = natural w.toNat := by
  cases v with
  | natural n => simp [word?, Word.ofNat?_eq_some_iff]
  | _ => simp [word?]

end Value

end SExpr
