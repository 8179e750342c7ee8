import LoxLexer.Log
/-! The scanner at work: a cursor that is moved over a source one character at a time, the two
counters that go with it, and where both were at the start of a lexeme. Texts are taken out of the
source by byte offsets, so a scanner whose offsets do not stand between characters has no answer. -/
namespace LoxLexer

/-- The text ahead is what the cursor has not read; offsets are in bytes, lines count from one. -/
structure Scanner where
  source : Text
  ahead : Text
  start : Nat
  startLine : Nat
  current : Nat
  line : Nat
  tokens : List Token
  errorCount : Nat
  scanned : Bool
  entries : List Entry
  deriving DecidableEq, Repr

namespace Scanner

def fresh (source : Text) : Scanner := ⟨source, source, 0, 1, 0, 1, [], 0, false, []⟩

def events (s : Scanner) : List Event := s.entries.filterMap Entry.event?

def errors (s : Scanner) : List LexicalError := s.events.filterMap Event.error?

def diagnostics (s : Scanner) : List Diagnostic := s.entries.filterMap Entry.diagnostic?

def tell (s : Scanner) (entries : List Entry) : Scanner := { s with entries := s.entries ++ entries }

def atEnd (s : Scanner) : Bool := s.source.byteLength ≤ s.current

def peek (s : Scanner) : Option Char := s.ahead.head?

def peekTwo (s : Scanner) : Option (Option Char) :=
  (s.source.behind s.current).map fun text => text[1]?

def lexeme (s : Scanner) : Option Text := s.source.slice s.start s.current

def advance (s : Scanner) : Scanner :=
  match s.ahead with
  | [] => s
  | c :: rest => { s with ahead := rest, current := s.current + c.utf8Size }

theorem advanceShrinks {s : Scanner} (more : s.peek.isSome) : s.advance.ahead.length < s.ahead.length := by
  cases ahead : s.ahead with
  | nil => simp [peek, ahead] at more
  | cons c rest => simp [advance, ahead]

def matchOne (s : Scanner) (expected : Char) : Bool × Scanner :=
  if s.peek = some expected then (true, s.advance) else (false, s)

def advanceWhile (keep : Char → Bool) (s : Scanner) : Scanner :=
  match _next : s.peek with
  | none => s
  | some c => if keep c then s.advance.advanceWhile keep else s
termination_by s.ahead.length
decreasing_by exact advanceShrinks (by simp [_next])

def advanceString (s : Scanner) : Scanner :=
  match _next : s.peek with
  | none => s
  | some c =>
    if c = '"' then s
    else if c = '\n' then { s.advance with line := s.line + 1 }.advanceString
    else s.advance.advanceString
termination_by s.ahead.length
decreasing_by all_goals exact advanceShrinks (by simp [_next])

abbrev Verdict := Except LexicalError (Option Kind)

def string (s : Scanner) : Option (Verdict × Scanner) :=
  let s := s.advanceString
  match s.peek with
  | none => s.lexeme.map fun start => (.error (.unterminatedString s.line start), s)
  | some _ => some (.ok (some .string), s.advance)

def number (s : Scanner) : Option (Verdict × Scanner) :=
  let s := s.advanceWhile Char.isDigit
  if s.peek = some '.' then
    s.peekTwo.map fun second =>
      (.ok (some .number), if second.any Char.isDigit then s.advance.advanceWhile Char.isDigit else s)
  else some (.ok (some .number), s)

def word (s : Scanner) : Option (Verdict × Scanner) :=
  let s := s.advanceWhile isWordPart
  s.lexeme.map fun text => (.ok (some (.ofWord text)), s)

def slash (s : Scanner) : Verdict × Scanner :=
  let (second, s) := s.matchOne '/'
  if second then (.ok none, s.advanceWhile (· != '\n')) else (.ok (some (.mark .slash)), s)

def mark (short : Mark) (s : Scanner) : Verdict × Scanner :=
  match short.withEqual? with
  | none => (.ok (some (.mark short)), s)
  | some long =>
    let (equal, s) := s.matchOne '='
    (.ok (some (.mark (if equal then long else short))), s)

def dispatch (c : Char) (s : Scanner) : Option (Verdict × Scanner) :=
  match Mark.ofChar? c with
  | some short => some (if short = .slash then s.slash else s.mark short)
  | none =>
    if isBlank c then some (.ok none, s)
    else if c = '\n' then some (.ok none, { s with line := s.line + 1 })
    else if c = '"' then s.string
    else if c.isDigit then s.number
    else if isWordStart c then s.word
    else some (.error (.unexpectedCharacter s.line c), s)

/-- Quotes are left out of a string's value; what a number's text cannot be read as is no value. -/
def literal (text : Text) : Kind → Option (Option Literal)
  | .string => (text.slice 1 (text.byteLength - 1)).map fun body => some (.string body)
  | .number => some ((Numeral.ofText? text).map fun numeral => .number (.ofDecimal numeral.value))
  | _ => some none

def addToken (s : Scanner) (kind : Kind) : Option Scanner :=
  s.lexeme.bind fun text => (literal text kind).map fun value =>
    let token : Token := ⟨kind, text, value, s.startLine⟩
    { s with tokens := s.tokens ++ [token] }.tell (Finding.token token).entries

def report (s : Scanner) (e : LexicalError) : Scanner :=
  { s with errorCount := s.errorCount + 1 }.tell (Finding.error e).entries

def settle : Verdict × Scanner → Option Scanner
  | (.ok none, s) => some s
  | (.ok (some kind), s) => s.addToken kind
  | (.error e, s) => some (s.report e)

def scanToken (s : Scanner) : Option Scanner :=
  let s := { s with start := s.current, startLine := s.line }
  match s.peek with
  | none => some s
  | some c => (s.advance.dispatch c).bind settle

/-- A turn that reads nothing would be taken for ever, so it gives no answer either. -/
def scanAll (s : Scanner) : Option Scanner :=
  if s.atEnd then some s
  else
    match s.scanToken with
    | none => none
    | some next => if next.ahead.length < s.ahead.length then next.scanAll else none
termination_by s.ahead.length

def finish (s : Scanner) : Scanner :=
  let tokens := s.tokens ++ [Token.eof s.line]
  { s with tokens := tokens, scanned := true }.tell
    [.event (.scanFinished tokens.length s.errorCount s.line)]

def scanTokens (s : Scanner) : Option Scanner :=
  if s.scanned then some s
  else (s.tell [.event (.scanStarted s.source.byteLength)]).scanAll.map finish

end Scanner
end LoxLexer
