import SExpr.Proofs.Limits
import SExpr.Proofs.Reports

/-!
What a message says about its error. A message is made of fixed words, numbers, a character
that is shown by an escape if it has to be and, for digits out of range, the run as it is
written, which can be any text. The first word and whether the message ends in a number tell
the kind of error. A number is then read from the end of what it ends: the words before it
end in a space, so no text in front of them reaches into it. What is left between fixed words
is the free text, or the shown character, which can be read back.
-/

namespace SExpr

namespace Text

/-! ### Characters as they are shown -/

/-- The value of a lower-case hexadecimal digit. -/
def hexDigitValue (c : Char) : Nat := if c.isDigit then c.toNat - 48 else c.toNat - 87

/-- The value of a run of hexadecimal digits, most significant first. -/
def hexValue (run : List Char) : Nat :=
  run.foldl (fun value c => 16 * value + hexDigitValue c) 0

theorem hexDigitValue_digitChar {d : Nat} (h : d < 16) : hexDigitValue d.digitChar = d := by
  have hall : ∀ d < 16, hexDigitValue (Nat.digitChar d) = d := by decide
  exact hall d h

theorem hexValue_toDigits (n : Nat) : hexValue (Nat.toDigits 16 n) = n := by
  induction n using Nat.strongRecOn with
  | ind n ih =>
      by_cases hn : n < 16
      · rw [Nat.toDigits_of_lt_base hn]
        show 16 * 0 + hexDigitValue n.digitChar = n
        rw [hexDigitValue_digitChar hn, Nat.mul_zero, Nat.zero_add]
      · have hquotient : hexValue (Nat.toDigits 16 (n / 16)) = n / 16 := ih (n / 16) (by omega)
        rw [Nat.toDigits_of_base_le (by decide) (Nat.not_lt.1 hn), hexValue, List.foldl_append]
        show 16 * hexValue (Nat.toDigits 16 (n / 16)) + hexDigitValue (n % 16).digitChar = n
        rw [hquotient, hexDigitValue_digitChar (Nat.mod_lt n (by decide))]
        exact Nat.div_add_mod n 16

/-- Reads a shown character back; the number of characters tells how it is shown. -/
def unescape : List Char → Option Char
  | [] => none
  | [c] => some c
  | [_, letter] => (escapes.find? fun entry => entry.2 = letter).map Prod.fst
  | _ :: _ :: _ :: shown => some (Char.ofNat (hexValue shown.dropLast))

@[simp] theorem unescape_escape (c : Char) : unescape (escape c) = some c := by
  unfold escape
  split
  next letter hletter =>
    have hall : ∀ entry ∈ escapes, unescape [backslash, entry.2] = some entry.1 := by decide
    obtain ⟨before, behind, hsplit, -⟩ := List.lookup_eq_some_iff.1 hletter
    exact hall (c, letter) (by simp [hsplit])
  next =>
    split
    · rfl
    · show some (Char.ofNat (hexValue (codePoint c ++ ['\x7d']).dropLast)) = some c
      rw [List.dropLast_concat, codePoint, hexValue_toDigits, Char.ofNat_toNat]

theorem quote_injective {a b : Char} (h : quote a = quote b) : a = b := by
  have hescape : escape a = escape b := List.append_cancel_right (List.cons.inj h).2
  simpa using congrArg unescape hescape

/-! ### Numbers in a text -/

theorem numeral_injective {m n : Nat} (h : String.ofList (digits m) = String.ofList (digits n)) :
    m = n :=
  digits_injective (String.ofList_injective h)

/-- Behind words that end in a space, a number at the end of a text can be told from what
stands before the words. -/
theorem append_numeral_inj {words : String} (hwords : words.toList.getLast? = some ' ')
    {a b : String} {m n : Nat}
    (h : a ++ words ++ String.ofList (digits m) = b ++ words ++ String.ofList (digits n)) :
    a = b ∧ m = n := by
  obtain ⟨front, hfront⟩ := List.getLast?_eq_some_iff.1 hwords
  have hchars :
      a.toList ++ (front ++ ' ' :: digits m) = b.toList ++ (front ++ ' ' :: digits n) := by
    simpa [hfront] using congrArg String.toList h
  have hbackwards : (digits m).reverse ++ ' ' :: (a.toList ++ front).reverse =
      (digits n).reverse ++ ' ' :: (b.toList ++ front).reverse := by
    simpa using congrArg List.reverse hchars
  have hdigit (k : Nat) : ∀ c ∈ (digits k).reverse, c.isDigit := fun c hc =>
    isDigit_of_mem_digits (List.mem_reverse.1 hc)
  have hdigits : digits m = digits n :=
    List.reverse_injective
      (append_inj_of_span (hdigit m) (hdigit n) (by simp) (by simp) hbackwards)
  obtain rfl : m = n := digits_injective hdigits
  exact ⟨String.toList_inj.1 (List.append_cancel_right hchars), rfl⟩

/-- The first word of a text. -/
def firstWord (text : String) : List Char := text.toList.takeWhile (· ≠ ' ')

/-- Whether a text ends in a digit. -/
def endsInDigit (text : String) : Bool := text.toList.getLast?.any Char.isDigit

theorem endsInDigit_append_numeral (text : String) (n : Nat) :
    endsInDigit (text ++ String.ofList (digits n)) = true := by
  have hlast : (digits n).getLast? = some ((digits n).getLast (digits_ne_nil n)) :=
    List.getLast?_eq_some_getLast _
  rw [endsInDigit, String.toList_append, String.toList_ofList, List.getLast?_append, hlast]
  exact isDigit_of_mem_digits (List.getLast_mem (digits_ne_nil n))

theorem endsInDigit_append {words : String} (hwords : words.toList ≠ []) (text : String) :
    endsInDigit (text ++ words) = endsInDigit words := by
  have hlast : words.toList.getLast? = some (words.toList.getLast hwords) :=
    List.getLast?_eq_some_getLast _
  rw [endsInDigit, endsInDigit, String.toList_append, List.getLast?_append, hlast]
  rfl

end Text

/-! ### Kinds of errors -/

/-- The first word of the message of an error, and whether the message ends in a number. -/
def ReadError.mark : ReadError → List Char × Bool
  | .scan ⟨.unrecognized _, _⟩ => ("Unrecognized".toList, true)
  | .scan ⟨.unterminated _, _⟩ => ("Operator".toList, false)
  | .scan ⟨.outOfRange _, _⟩ => ("Integer".toList, false)
  | .parse (.unexpectedClose _) => ("Unbalanced".toList, true)
  | .parse (.unclosedOpen _) => ("Unbalanced".toList, false)
  | .parse (.nestingTooDeep _ _) => ("Nesting".toList, true)

theorem ReadError.mark_message (error : ReadError) :
    (Text.firstWord error.message, Text.endsInDigit error.message) = error.mark := by
  cases error with
  | scan error =>
      obtain ⟨fault, offset⟩ := error
      cases fault with
      | unrecognized c =>
          unfold message ScanError.message mark
          rw [Text.endsInDigit_append_numeral]
          simp [Text.firstWord]
      | unterminated op =>
          unfold message ScanError.message mark
          rw [Text.endsInDigit_append (by decide)]
          simp [Text.firstWord, Text.endsInDigit]
      | outOfRange literal =>
          unfold message ScanError.message mark
          rw [Text.endsInDigit_append (by decide)]
          simp [Text.firstWord, Text.endsInDigit]
  | parse error =>
      cases error with
      | unexpectedClose index =>
          unfold message ParseError.message mark
          rw [Text.endsInDigit_append_numeral]
          simp [Text.firstWord]
      | unclosedOpen unclosed =>
          unfold message ParseError.message mark
          rw [Text.endsInDigit_append (by decide)]
          simp [Text.firstWord, Text.endsInDigit]
      | nestingTooDeep limit index =>
          unfold message ParseError.message mark
          rw [Text.endsInDigit_append_numeral]
          simp [Text.firstWord]

theorem ReadError.mark_eq {error error' : ReadError} (h : error.message = error'.message) :
    error.mark = error'.mark := by
  rw [← mark_message, ← mark_message, h]

/-! ### Errors of each kind -/

theorem ScanError.message_injective {error error' : ScanError}
    (h : error.message = error'.message) : error = error' := by
  have hmark : ReadError.mark (.scan error) = ReadError.mark (.scan error') :=
    ReadError.mark_eq h
  obtain ⟨fault, offset⟩ := error
  obtain ⟨fault', offset'⟩ := error'
  cases fault with
  | unrecognized c =>
      cases fault' with
      | unrecognized c' =>
          unfold message at h
          obtain ⟨hquote, rfl⟩ := Text.append_numeral_inj (by decide) h
          rw [String.append_right_inj] at hquote
          rw [Text.quote_injective (String.ofList_injective hquote)]
      | _ =>
          unfold ReadError.mark at hmark
          simp at hmark
  | unterminated op =>
      cases fault' with
      | unterminated op' =>
          unfold message at h
          rw [String.append_left_inj] at h
          obtain ⟨hop, rfl⟩ := Text.append_numeral_inj (by decide) h
          rw [String.append_right_inj, String.ofList_inj] at hop
          have hchar : op.toChar = op'.toChar := by simpa using hop
          rw [Operator.toChar_injective hchar]
      | _ =>
          unfold ReadError.mark at hmark
          simp at hmark
  | outOfRange literal =>
      cases fault' with
      | outOfRange literal' =>
          unfold message at h
          rw [String.append_left_inj] at h
          obtain ⟨hliteral, rfl⟩ := Text.append_numeral_inj (by decide) h
          rw [String.append_right_inj] at hliteral
          rw [hliteral]
      | _ =>
          unfold ReadError.mark at hmark
          simp at hmark

theorem ParseError.message_injective {error error' : ParseError}
    (h : error.message = error'.message) : error = error' := by
  have hmark : ReadError.mark (.parse error) = ReadError.mark (.parse error') :=
    ReadError.mark_eq h
  cases error with
  | unexpectedClose index =>
      cases error' with
      | unexpectedClose index' =>
          unfold message at h
          rw [String.append_right_inj] at h
          rw [Text.numeral_injective h]
      | _ =>
          unfold ReadError.mark at hmark
          simp at hmark
  | unclosedOpen unclosed =>
      cases error' with
      | unclosedOpen unclosed' =>
          unfold message at h
          rw [String.append_left_inj, String.append_right_inj] at h
          rw [Text.numeral_injective h]
      | _ =>
          unfold ReadError.mark at hmark
          simp at hmark
  | nestingTooDeep limit index =>
      cases error' with
      | nestingTooDeep limit' index' =>
          unfold message at h
          obtain ⟨hlimit, rfl⟩ := Text.append_numeral_inj (by decide) h
          rw [String.append_right_inj] at hlimit
          rw [Text.numeral_injective hlimit]
      | _ =>
          unfold ReadError.mark at hmark
          simp at hmark

theorem ReadError.message_scan_ne_message_parse (error : ScanError) (error' : ParseError) :
    message (.scan error) ≠ message (.parse error') := by
  intro h
  have hmark := mark_eq h
  obtain ⟨fault, offset⟩ := error
  cases fault
  all_goals
    cases error'
    all_goals
      unfold mark at hmark
      simp at hmark

/-- Errors with the same message are the same error. -/
theorem ReadError.message_injective {error error' : ReadError}
    (h : error.message = error'.message) : error = error' := by
  cases error with
  | scan error =>
      cases error' with
      | scan error' => rw [ScanError.message_injective h]
      | parse error' => exact absurd h (message_scan_ne_message_parse error error')
  | parse error =>
      cases error' with
      | scan error' => exact absurd h.symm (message_scan_ne_message_parse error' error)
      | parse error' => rw [ParseError.message_injective h]

/-! ### The log -/

/-- The message of the event that a stage was given up. -/
def Event.message? : Event → Option String
  | .scanAborted message | .parseAborted message => some message
  | _ => none

/-- The message at the end of a log. -/
def lastMessage? (log : List Event) : Option String := log.getLast?.bind Event.message?

theorem lastMessage?_concat (log : List Event) (event : Event) :
    lastMessage? (log ++ [event]) = event.message? := by
  rw [lastMessage?, List.getLast?_concat]
  rfl

/-- The log of a read that fails ends with the message of the error. -/
theorem lastMessage?_readLogged_of_error {text : String} {options : Options} {error : ReadError}
    (h : Tree.read text options = .error error) :
    lastMessage? (readLogged text options).1 = some error.message := by
  rcases Tree.read_eq_error_iff.1 h with
    ⟨fault, hscan, rfl⟩ | ⟨tokens, refusal, hscan, hparse, rfl⟩
  · rw [readLogged_of_error hscan, scanLogged_of_error hscan, lastMessage?_concat]
    rfl
  · rw [readLogged_of_ok hscan, parseLogged, hparse, lastMessage?_concat]
    rfl

namespace ReadError

/-- A message identifies its error: its kind, its numbers and the character or the text that
it carries. So the log loses nothing of an error: what it ends with when a read fails is the
message of the error that the read fails with, and of no other error. -/
theorem message_identifies :
    (∀ error error' : ReadError, error.message = error'.message → error = error') ∧
      ∀ text options error, Tree.read text options = .error error →
        ∀ error' : ReadError,
          lastMessage? (readLogged text options).1 = some error'.message ↔ error' = error := by
  refine ⟨fun error error' h => message_injective h, ?_⟩
  intro text options error hread error'
  rw [lastMessage?_readLogged_of_error hread, Option.some.injEq]
  exact ⟨fun h => (message_injective h).symm, fun h => by rw [h]⟩

/-- Two reads that are given up for the same character, behind different tokens: they have
one message, which is also what the log of the first ends with. -/
theorem message_identifies_foreign :
    ∃ error error', Tree.read "(ab ." = .error error ∧
      Tree.read "1 2 . )" ⟨some 0⟩ = .error error' ∧ error.message = error'.message ∧
        error = error' ∧ lastMessage? (readLogged "(ab .").1 = some error'.message := by
  have hread : Tree.read "(ab ." = .error (.scan ⟨.unrecognized '.', 4⟩) := by
    decide +kernel
  have hread' : Tree.read "1 2 . )" ⟨some 0⟩ = .error (.scan ⟨.unrecognized '.', 4⟩) := by
    decide +kernel
  have hsame :=
    message_identifies.1 (.scan ⟨.unrecognized '.', 4⟩) (.scan ⟨.unrecognized '.', 4⟩) rfl
  exact ⟨_, _, hread, hread', rfl, hsame, (message_identifies.2 _ _ _ hread _).2 hsame.symm⟩

end ReadError

end SExpr
