import SExpr.Reader

/-!
What a read reports while it goes on: every token as it is found, and for each
of the two stages one event that sums it up or says why it was given up.
-/

namespace SExpr

inductive Event where
  /-- A token was found, with its place and its text. -/
  | token (offset : Nat) (text : String)
  | scanAborted (message : String)
  | scanned (chars tokens : Nat)
  | parseAborted (message : String)
  | parsed (tokens forms depth : Nat)
  deriving DecidableEq

namespace Event

def ofLocated (found : Located) : Event := token found.offset found.token.text

end Event

namespace Scanner

/-- The token that a step finds, with its place. -/
def finds? : Scanner → Option Located
  | ⟨[], _, _⟩ => none
  | ⟨c :: rest, offset, _⟩ =>
    match (Lexeme.split c rest).1.token? with
    | .ok (some token) => some ⟨offset, token⟩
    | _ => none

/-- What a step finds is what it keeps. -/
theorem found_of_step {s next : Scanner} (h : s.step = some (none, next)) :
    next.found = s.finds?.toList ++ s.found := by
  obtain ⟨_ | ⟨c, rest⟩, offset, found⟩ := s
  · simp [step] at h
  · simp only [step] at h
    split at h <;> cases h
    all_goals simp [finds?, *]

/-- Steps as a run does and puts what it reports before the events of a log, the
latest first: each token when it is found, and in the end how the run came out. -/
def runLogged (s : Scanner) (log : List Event) : List Event × Option ScanError × Scanner :=
  match _ : s.step with
  | none => (.scanned s.offset s.found.length :: log, none, s)
  | some (none, next) => runLogged next ((s.finds?.map Event.ofLocated).toList ++ log)
  | some (some error, next) => (.scanAborted error.message :: log, some error, next)
termination_by s.rest.length
decreasing_by exact length_rest_step_lt ‹_›

/-- Reporting changes nothing of a run. -/
theorem runLogged_snd (s : Scanner) (log : List Event) : (s.runLogged log).2 = s.run := by
  fun_induction runLogged s log with
  | case1 s log hstep => rw [run_of_step_none hstep]
  | case2 s log next hstep ih => rw [ih, run_of_step_ok hstep]
  | case3 s log error next hstep => rw [run_of_step_error hstep]

end Scanner

/-- The events of a scan from the start of a text, and its result. -/
def scanLogged (text : String) : List Event × Except ScanError (List Token) :=
  match (Scanner.ofText text).runLogged [] with
  | (log, none, scanner) => (log.reverse, .ok scanner.tokens)
  | (log, some error, _) => (log.reverse, .error error)

theorem scanLogged_snd (text : String) : (scanLogged text).2 = scan text := by
  have hrun := (Scanner.ofText text).runLogged_snd []
  rcases hlogged : (Scanner.ofText text).runLogged [] with ⟨log, _ | error, scanner⟩
  all_goals
    rw [hlogged] at hrun
    simp [scanLogged, hlogged, scan, Scanner.scan, ← hrun]

def parseLogged (tokens : List Token) (options : Options := {}) :
    List Event × Except ParseError Tree :=
  match Tree.ofTokens tokens options with
  | .ok tree => ([.parsed tokens.length tree.size tree.depth], .ok tree)
  | .error error => ([.parseAborted error.message], .error error)

theorem parseLogged_snd (tokens : List Token) (options : Options) :
    (parseLogged tokens options).2 = Tree.ofTokens tokens options := by
  cases h : Tree.ofTokens tokens options <;> simp [parseLogged, h]

/-- The events of a read, and its result. -/
def readLogged (text : String) (options : Options := {}) :
    List Event × Except ReadError Tree :=
  match scanLogged text with
  | (events, .error error) => (events, .error (.scan error))
  | (events, .ok tokens) =>
    match parseLogged tokens options with
    | (more, .error error) => (events ++ more, .error (.parse error))
    | (more, .ok tree) => (events ++ more, .ok tree)

/-- The log leaves the result as it is. -/
theorem readLogged_snd (text : String) (options : Options) :
    (readLogged text options).2 = Tree.read text options := by
  rw [Tree.read, ← scanLogged_snd]
  rcases hs : scanLogged text with ⟨events, _ | tokens⟩
  · simp [readLogged, hs]
  · rcases hp : parseLogged tokens options with ⟨more, _ | tree⟩
    all_goals simp [readLogged, hs, hp, ← parseLogged_snd]

end SExpr
