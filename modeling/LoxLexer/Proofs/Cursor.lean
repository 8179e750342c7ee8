import LoxLexer.Scanner
import LoxLexer.Proofs.Boundary
import LoxLexer.Proofs.Findings
/-! What a scanner answers. Each of its turns reads one piece: the cursor gets behind the piece's text,
the line counter is moved by the line feeds in it, wherever they are counted, and what is taken out of
the source by offsets is that text. So a scanner has an answer, the scan of its source. -/
namespace LoxLexer

theorem Numeral.ofTextExact {n : Numeral} (shape : n.WellFormed) : ofText? n.text = some n := by
  obtain ⟨whole, fraction⟩ := n
  obtain ⟨some, wholeDigits, fractionDigits⟩ := shape
  cases whole with
  | nil => exact absurd rfl some
  | cons c cs =>
    cases fraction with
    | nil =>
      obtain ⟨taken, left⟩ := spanHalts wholeDigits (haltsEmpty Char.isDigit)
      rw [List.append_nil] at taken left
      simp only [text, ofText?, taken, left]
    | cons d more =>
      obtain ⟨taken, left⟩ := spanHalts wholeDigits (haltsCons.mpr rfl : Halts Char.isDigit ('.' :: d :: more))
      have digits : (d :: more).all Char.isDigit = true := List.all_eq_true.mpr fractionDigits
      simp only [text, ofText?, taken, left, digits, if_true]

def Finding.event : Finding → Event
  | token t => .tokenFound t
  | error e => .errorFound e

namespace Piece

def verdict (line : Nat) (p : Piece) : Scanner.Verdict :=
  match p with
  | stray character => .error (.unexpectedCharacter line character)
  | unclosed body => .error (.unterminatedString (line + Text.lineFeeds body) ('"' :: body))
  | p => .ok p.kind?

end Piece

namespace Scanner

def past (s : Scanner) (text rest : Text) : Scanner :=
  { s with ahead := rest, current := s.current + text.byteLength, line := s.line + text.lineFeeds }

theorem pastTwice (s : Scanner) (a b front back : Text) :
    (s.past a front).past b back = s.past (a ++ b) back := by
  simp only [past, Text.byteLengthAppend, Text.lineFeedsAppend, Nat.add_assoc]

theorem pastNothing {s : Scanner} {rest : Text} (ahead : s.ahead = rest) : s.past [] rest = s := by
  subst ahead
  rfl

theorem peekCons {s : Scanner} {c : Char} {rest : Text} (ahead : s.ahead = c :: rest) : s.peek = some c := by
  rw [peek, ahead, List.head?_cons]

theorem peekEnd {s : Scanner} (ahead : s.ahead = []) : s.peek = none := by
  rw [peek, ahead, List.head?_nil]

theorem feedsOther {c : Char} (other : c ≠ '\n') : Text.lineFeeds [c] = 0 :=
  List.count_eq_zero_of_not_mem (by simpa using Ne.symm other)

theorem advanceCons {s : Scanner} {c : Char} {rest : Text} (ahead : s.ahead = c :: rest) (quiet : c ≠ '\n') :
    s.advance = s.past [c] rest := by
  simp only [advance, ahead, past, feedsOther quiet]
  rfl

theorem advanceFeed {s : Scanner} {rest : Text} (ahead : s.ahead = '\n' :: rest) :
    { s.advance with line := s.line + 1 } = s.past ['\n'] rest := by
  simp only [advance, ahead, past]
  rfl

theorem matchExact {s : Scanner} {c : Char} {rest : Text} (ahead : s.ahead = c :: rest) (quiet : c ≠ '\n') :
    s.matchOne c = (true, s.past [c] rest) := by
  rw [matchOne, if_pos (peekCons ahead), advanceCons ahead quiet]

theorem matchHalts {s : Scanner} {c : Char} (halts : Halts (· == c) s.ahead) : s.matchOne c = (false, s) := by
  refine if_neg fun next => ?_
  have other := halts c next
  simp at other

theorem advanceWhileEnd {s : Scanner} (keep : Char → Bool) (ahead : s.ahead = []) : s.advanceWhile keep = s := by
  have next := peekEnd ahead
  rw [advanceWhile]
  split
  · rfl
  · simp_all

theorem advanceWhileStep {s : Scanner} {c : Char} {rest : Text} (keep : Char → Bool)
    (ahead : s.ahead = c :: rest) :
    s.advanceWhile keep = if keep c then s.advance.advanceWhile keep else s := by
  have next := peekCons ahead
  rw [advanceWhile]
  split
  · simp_all
  · simp_all

theorem advanceWhileExact {keep : Char → Bool} (quiet : keep '\n' = false) {s : Scanner} {body rest : Text}
    (ahead : s.ahead = body ++ rest) (inside : ∀ c ∈ body, keep c = true) (halts : Halts keep rest) :
    s.advanceWhile keep = s.past body rest := by
  induction body generalizing s with
  | nil =>
    have same : s.past [] rest = s := pastNothing ahead
    rw [same]
    cases rest with
    | nil => exact advanceWhileEnd keep ahead
    | cons c rest =>
      have stop := haltsCons.mp halts
      rw [advanceWhileStep keep ahead, stop]
      rfl
  | cons c body ih =>
    obtain ⟨head, tail⟩ := List.forall_mem_cons.mp inside
    have other : c ≠ '\n' := by
      rintro rfl
      rw [quiet] at head
      contradiction
    rw [advanceWhileStep keep ahead, if_pos head, advanceCons ahead other]
    exact (ih rfl tail).trans (pastTwice s [c] body _ rest)

theorem advanceStringEnd {s : Scanner} (ahead : s.ahead = []) : s.advanceString = s := by
  have next := peekEnd ahead
  rw [advanceString]
  split
  · rfl
  · simp_all

theorem advanceStringStep {s : Scanner} {c : Char} {rest : Text} (ahead : s.ahead = c :: rest) :
    s.advanceString = if c = '"' then s else (s.past [c] rest).advanceString := by
  have next := peekCons ahead
  rw [advanceString]
  split
  · simp_all
  · rename_i d more
    obtain rfl : c = d := Option.some.inj (next.symm.trans more)
    by_cases feed : c = '\n'
    · subst feed
      rw [advanceFeed ahead]
      rfl
    · rw [if_neg feed, advanceCons ahead feed]

theorem advanceStringExact {s : Scanner} {body rest : Text} (ahead : s.ahead = body ++ rest)
    (inside : '"' ∉ body) (halts : Halts (· != '"') rest) : s.advanceString = s.past body rest := by
  induction body generalizing s with
  | nil =>
    have same : s.past [] rest = s := pastNothing ahead
    rw [same]
    cases rest with
    | nil => exact advanceStringEnd ahead
    | cons c rest =>
      have quote : c = '"' := by simpa using haltsCons.mp halts
      rw [advanceStringStep ahead, if_pos quote]
  | cons c body ih =>
    have other : c ≠ '"' := fun same => inside (same ▸ List.mem_cons_self)
    have tail : '"' ∉ body := fun member => inside (List.mem_cons_of_mem c member)
    rw [advanceStringStep ahead, if_neg other]
    exact (ih rfl tail).trans (pastTwice s [c] body _ rest)

/- The lexeme in progress is this text, and it is behind all that was read before it. -/
structure Holds (s : Scanner) (before text : Text) : Prop where
  source : s.source = before ++ (text ++ s.ahead)
  start : s.start = before.byteLength
  current : s.current = before.byteLength + text.byteLength

namespace Holds

variable {s : Scanner} {before text more rest : Text}

theorem lexeme (holds : s.Holds before text) : s.lexeme = some text := by
  rw [Scanner.lexeme, holds.source, holds.start, holds.current, Text.sliceExact]

theorem past (holds : s.Holds before text) (ahead : s.ahead = more ++ rest) :
    (s.past more rest).Holds before (text ++ more) := by
  refine ⟨?_, holds.start, ?_⟩
  · simp only [Scanner.past, holds.source, ahead, List.append_assoc]
  · simp only [Scanner.past, holds.current, Text.byteLengthAppend, Nat.add_assoc]

theorem first {c : Char} (holds : s.Holds before []) (ahead : s.ahead = c :: rest) :
    (s.past [c] rest).Holds before [c] := @Holds.past s before [] [c] rest holds ahead

theorem peekTwo (holds : s.Holds before text) : s.peekTwo = some s.ahead[1]? := by
  have place : s.current = (before ++ text).byteLength := by rw [holds.current, Text.byteLengthAppend]
  rw [Scanner.peekTwo, holds.source, ← List.append_assoc, place, Text.behindExact, Option.map_some]

end Holds

theorem markNone {c : Char} (other : c = '\n' ∨ isBlank c = true ∨ c = '"' ∨ c.isDigit = true ∨
    isWordStart c = true) : Mark.ofChar? c = none := by
  cases found : Mark.ofChar? c with
  | none => rfl
  | some m =>
    obtain ⟨notFeed, notBlank, notQuote, notDigit, notStart⟩ := Piece.markPlain (Mark.ofCharExact.mp found)
    simp_all

theorem slashAlone {s : Scanner} (halts : Halts (· == '/') s.ahead) :
    s.slash = (.ok (some (.mark .slash)), s) := by
  rw [slash, matchHalts halts]
  rfl

theorem slashComment {s : Scanner} {body rest : Text} (ahead : s.ahead = '/' :: (body ++ rest))
    (inside : '\n' ∉ body) (halts : Halts (· != '\n') rest) :
    s.slash = (.ok none, s.past ('/' :: body) rest) := by
  have read := advanceWhileExact (s := s.past ['/'] (body ++ rest)) rfl rfl (insideOther.mpr inside) halts
  rw [slash, matchExact ahead (by decide)]
  dsimp only
  rw [if_pos rfl, read, pastTwice]
  rfl

theorem markAlone {s : Scanner} {m : Mark} (halts : m.withEqual?.isSome → Halts (· == '=') s.ahead) :
    s.mark m = (.ok (some (.mark m)), s) := by
  rw [mark]
  cases grows : m.withEqual? with
  | none => rfl
  | some long =>
    rw [grows] at halts
    rw [matchHalts (halts rfl)]
    rfl

theorem markEqual {s : Scanner} {short long : Mark} {rest : Text} (ahead : s.ahead = '=' :: rest)
    (grows : short.withEqual? = some long) : s.mark short = (.ok (some (.mark long)), s.past ['='] rest) := by
  rw [mark, grows, matchExact ahead (by decide)]
  rfl

theorem stringClosed {s : Scanner} {body rest : Text} (ahead : s.ahead = body ++ '"' :: rest)
    (inside : '"' ∉ body) : s.string = some (.ok (some .string), s.past (body ++ ['"']) rest) := by
  have read := advanceStringExact ahead inside (haltsCons.mpr rfl)
  have close := advanceCons (s := s.past body ('"' :: rest)) rfl (by decide)
  rw [string, read, close, pastTwice]
  rfl

theorem stringOpen {s : Scanner} {before text body : Text} (holds : s.Holds before text) (ahead : s.ahead = body)
    (inside : '"' ∉ body) : s.string =
      some (.error (.unterminatedString (s.line + Text.lineFeeds body) (text ++ body)), s.past body []) := by
  have whole : s.ahead = body ++ [] := by rw [ahead, List.append_nil]
  have read := advanceStringExact whole inside (haltsEmpty _)
  rw [string, read, (holds.past whole).lexeme]
  rfl

theorem numberWhole {s : Scanner} {before text whole rest : Text} (holds : s.Holds before text)
    (ahead : s.ahead = whole ++ rest) (digits : ∀ c ∈ whole, c.isDigit = true) (halts : Halts Char.isDigit rest)
    (point : ∀ d more, rest = '.' :: d :: more → d.isDigit = false) :
    s.number = some (.ok (some .number), s.past whole rest) := by
  have second : (s.past whole rest).peekTwo = some rest[1]? := (holds.past ahead).peekTwo
  rw [number, advanceWhileExact rfl ahead digits halts]
  split
  · rename_i next
    obtain ⟨more, rfl⟩ : ∃ more, rest = '.' :: more := List.head?_eq_some_iff.mp next
    have stop : ('.' :: more)[1]?.any Char.isDigit = false := by
      cases more with
      | nil => rfl
      | cons d more => simpa using point d more rfl
    rw [second, Option.map_some, stop]
    rfl
  · rfl

theorem numberFraction {s : Scanner} {before text whole more rest : Text} {d : Char}
    (holds : s.Holds before text) (ahead : s.ahead = whole ++ '.' :: (d :: more ++ rest))
    (digits : ∀ c ∈ whole, c.isDigit = true) (fraction : ∀ c ∈ d :: more, c.isDigit = true)
    (halts : Halts Char.isDigit rest) :
    s.number = some (.ok (some .number), s.past (whole ++ '.' :: d :: more) rest) := by
  have next : (s.past whole ('.' :: (d :: more ++ rest))).peek = some '.' := rfl
  have second := (holds.past ahead).peekTwo
  have point := advanceCons (s := s.past whole ('.' :: (d :: more ++ rest))) rfl (by decide)
  have digit : ((s.past whole ('.' :: (d :: more ++ rest))).ahead[1]?).any Char.isDigit = true :=
    fraction d List.mem_cons_self
  have behind := advanceWhileExact (s := s.past (whole ++ ['.']) (d :: more ++ rest)) rfl rfl fraction halts
  rw [number, advanceWhileExact rfl ahead digits (haltsCons.mpr rfl), if_pos next, second, Option.map_some,
    if_pos digit, point, pastTwice, behind, pastTwice, List.append_assoc]
  rfl

theorem wordExact {s : Scanner} {before text body rest : Text} (holds : s.Holds before text)
    (ahead : s.ahead = body ++ rest) (inside : ∀ c ∈ body, isWordPart c = true) (halts : Halts isWordPart rest) :
    s.word = some (.ok (some (.ofWord (text ++ body))), s.past body rest) := by
  rw [word, advanceWhileExact rfl ahead inside halts, (holds.past ahead).lexeme, Option.map_some]

theorem dispatchBlank {c : Char} (blank : isBlank c = true) (s : Scanner) : s.dispatch c = some (.ok none, s) := by
  rw [dispatch, markNone (by simp [blank])]
  exact if_pos blank

theorem dispatchFeed {s : Scanner} {rest : Text} (ahead : s.ahead = '\n' :: rest) :
    s.advance.dispatch '\n' = some (.ok none, s.past ['\n'] rest) := by
  rw [← advanceFeed ahead]
  simp only [advance, ahead]
  rfl

theorem dispatchQuote (s : Scanner) : s.dispatch '"' = s.string := rfl

theorem dispatchSlash (s : Scanner) : s.dispatch '/' = some s.slash := rfl

theorem dispatchDigit {c : Char} (digit : c.isDigit = true) (s : Scanner) : s.dispatch c = s.number := by
  obtain ⟨notFeed, notBlank, notQuote⟩ := Piece.digitPlain digit
  rw [dispatch, markNone (by simp [digit])]
  simp only [if_neg notBlank, if_neg notFeed, if_neg notQuote, if_pos digit]

theorem dispatchStart {c : Char} (start : isWordStart c = true) (s : Scanner) : s.dispatch c = s.word := by
  obtain ⟨notFeed, notBlank, notQuote, notDigit⟩ := Piece.wordStartPlain start
  rw [dispatch, markNone (by simp [start])]
  simp only [if_neg notBlank, if_neg notFeed, if_neg notQuote, if_neg notDigit, if_pos start]

theorem dispatchStray {c : Char} (stray : isStray c = true) (s : Scanner) :
    s.dispatch c = some (.error (.unexpectedCharacter s.line c), s) := by
  obtain ⟨notFeed, notBlank, notQuote, notDigit, notStart, notMark⟩ := Piece.strayPlain stray
  rw [dispatch, notMark]
  simp only [if_neg notBlank, if_neg notFeed, if_neg notQuote, if_neg notDigit, if_neg notStart]

theorem dispatchMark {s : Scanner} {rest : Text} {m : Mark} (ends : (Piece.mark m).Ends rest)
    (ahead : s.ahead = m.spelling ++ rest) : ∃ c, s.peek = some c ∧
      s.advance.dispatch c = some (.ok (some (.mark m)), s.past m.spelling rest) := by
  rcases Piece.markShape m with ⟨c, spelt⟩ | ⟨short, c, spelt, grows, notSlash⟩
  · rw [spelt] at ahead ⊢
    have notFeed := (Piece.markPlain spelt).1
    refine ⟨c, peekCons ahead, ?_⟩
    rw [advanceCons ahead notFeed, dispatch, Mark.ofCharExact.mpr spelt]
    by_cases slash : m = .slash
    · subst slash
      exact congrArg some (slashAlone (ends.2 rfl))
    · simp only [if_neg slash]
      exact congrArg some (markAlone ends.1)
  · have whole : m.spelling = [c] ++ ['='] := by rw [Mark.withEqualSpelling grows, spelt]
    rw [whole] at ahead ⊢
    have notFeed := (Piece.markPlain spelt).1
    refine ⟨c, peekCons ahead, ?_⟩
    rw [advanceCons ahead notFeed, dispatch, Mark.ofCharExact.mpr spelt]
    simp only [if_neg notSlash]
    rw [markEqual rfl grows, pastTwice]
    rfl

theorem dispatchNumber {s : Scanner} {before rest : Text} {n : Numeral} (stands : (Piece.number n).Stands rest)
    (holds : s.Holds before []) (ahead : s.ahead = n.text ++ rest) : ∃ c, s.peek = some c ∧
      s.advance.dispatch c = some (.ok (some .number), s.past n.text rest) := by
  obtain ⟨⟨some, whole, fraction⟩, halts, point⟩ := stands
  obtain ⟨digits, behind⟩ := n
  cases digits with
  | nil => exact absurd rfl some
  | cons c cs =>
    obtain ⟨digit, inside⟩ := List.forall_mem_cons.mp whole
    have notFeed := (Piece.digitPlain digit).1
    cases behind with
    | nil =>
      have next : s.ahead = c :: (cs ++ rest) := ahead
      refine ⟨c, peekCons next, ?_⟩
      rw [advanceCons next notFeed, dispatchDigit digit, numberWhole (holds.first next) rfl inside halts (point rfl),
        pastTwice]
      rfl
    | cons d more =>
      have next : s.ahead = c :: (cs ++ '.' :: (d :: more ++ rest)) := by
        rw [ahead]
        simp [Numeral.text]
      refine ⟨c, peekCons next, ?_⟩
      rw [advanceCons next notFeed, dispatchDigit digit, numberFraction (holds.first next) rfl inside fraction halts,
        pastTwice]
      rfl

theorem dispatchPiece {s : Scanner} {before rest : Text} {p : Piece} (stands : p.Stands rest)
    (holds : s.Holds before []) (ahead : s.ahead = p.text ++ rest) : ∃ c, s.peek = some c ∧
      s.advance.dispatch c = some (p.verdict s.line, s.past p.text rest) := by
  cases p with
  | mark m => exact dispatchMark stands.ends ahead
  | word letters =>
    obtain ⟨shape, ends⟩ := stands
    cases letters with
    | nil => exact absurd shape id
    | cons c cs =>
      obtain ⟨start, inside⟩ := shape
      have next : s.ahead = c :: (cs ++ rest) := ahead
      refine ⟨c, peekCons next, ?_⟩
      rw [advanceCons next (Piece.wordStartPlain start).1, dispatchStart start,
        wordExact (holds.first next) rfl inside ends, pastTwice]
      rfl
  | number n => exact dispatchNumber stands holds ahead
  | blank c =>
    have white : isBlank c = true := stands.wellFormed
    have notFeed : c ≠ '\n' := by rintro rfl; contradiction
    have next : s.ahead = c :: rest := ahead
    exact ⟨c, peekCons next, by rw [advanceCons next notFeed, dispatchBlank white]; rfl⟩
  | lineFeed => exact ⟨'\n', peekCons ahead, dispatchFeed ahead⟩
  | string body =>
    have next : s.ahead = '"' :: (body ++ '"' :: rest) := by
      rw [ahead]
      simp [Piece.text]
    refine ⟨'"', peekCons next, ?_⟩
    rw [advanceCons next (by decide), dispatchQuote, stringClosed rfl stands.wellFormed, pastTwice]
    rfl
  | comment body =>
    have next : s.ahead = '/' :: '/' :: (body ++ rest) := ahead
    have read := slashComment (s := s.past ['/'] ('/' :: (body ++ rest))) rfl stands.wellFormed stands.ends
    refine ⟨'/', peekCons next, ?_⟩
    rw [advanceCons next (by decide), dispatchSlash, read, pastTwice]
    rfl
  | stray c =>
    have stray : isStray c = true := stands.wellFormed
    have notFeed := (Piece.strayPlain stray).1
    have next : s.ahead = c :: rest := ahead
    have line : (s.past [c] rest).line = s.line := congrArg (s.line + ·) (feedsOther notFeed)
    refine ⟨c, peekCons next, ?_⟩
    rw [advanceCons next notFeed, dispatchStray stray, line]
    rfl
  | unclosed body =>
    obtain rfl : rest = [] := stands.ends
    have next : s.ahead = '"' :: body := by
      rw [ahead, List.append_nil]
      rfl
    refine ⟨'"', peekCons next, ?_⟩
    rw [advanceCons next (by decide), dispatchQuote, stringOpen (holds.first next) rfl stands.wellFormed, pastTwice]
    rfl

theorem literalExact {p : Piece} {kind : Kind} (shape : p.WellFormed) (named : p.kind? = some kind) :
    literal p.text kind = some p.literal? := by
  cases p with
  | mark m =>
    cases named
    rfl
  | word letters =>
    obtain rfl : Kind.ofWord letters = kind := Option.some.inj named
    unfold Kind.ofWord
    cases Keyword.ofText? letters <;> rfl
  | number n =>
    cases named
    have value : Numeral.ofText? (Piece.number n).text = some n := Numeral.ofTextExact shape
    rw [literal, value]
    rfl
  | string body =>
    cases named
    have last : Text.byteLength (Piece.string body).text - 1 = Text.byteLength ['"'] + Text.byteLength body := by
      have whole : (Piece.string body).text = ['"'] ++ (body ++ ['"']) := rfl
      rw [whole, Text.byteLengthAppend, Text.byteLengthAppend]
      exact Nat.add_sub_cancel (_ + _) 1
    have inside := Text.sliceExact ['"'] body ['"']
    rw [← last] at inside
    exact congrArg (Option.map fun body => some (Literal.string body)) inside
  | _ => contradiction

def found (s : Scanner) (findings : List Finding) : Scanner :=
  { s with
    tokens := s.tokens ++ findings.filterMap Finding.token?
    errorCount := s.errorCount + (findings.filterMap Finding.error?).length
    entries := s.entries ++ findings.flatMap Finding.entries }

theorem foundNothing (s : Scanner) : s.found [] = s := by simp [found]

theorem reportFound (s : Scanner) (e : LexicalError) : s.report e = s.found [.error e] := by
  simp [report, tell, found, Finding.token?, Finding.error?]

theorem settlePiece {s : Scanner} {p : Piece} {before rest : Text} (shape : p.WellFormed)
    (holds : s.Holds before []) (line : s.startLine = s.line) (ahead : s.ahead = p.text ++ rest) :
    settle (p.verdict s.line, s.past p.text rest) =
      some ((s.past p.text rest).found (Placed.finding? ⟨p, ⟨s.start, s.startLine⟩⟩).toList) := by
  have lexeme : (s.past p.text rest).lexeme = some p.text := (holds.past ahead).lexeme
  have kept {kind : Kind} (named : p.kind? = some kind) : (s.past p.text rest).addToken kind =
      some ((s.past p.text rest).found [.token ⟨kind, p.text, p.literal?, s.startLine⟩]) := by
    rw [addToken, lexeme, Option.bind_some, literalExact shape named, Option.map_some]
    rfl
  cases p with
  | mark m => exact kept rfl
  | word letters => exact kept rfl
  | number n => exact kept rfl
  | string body => exact kept rfl
  | stray c =>
    rw [line]
    exact congrArg some (reportFound _ _)
  | unclosed body =>
    have feeds : Text.lineFeeds (Piece.unclosed body).text = Text.lineFeeds body := by
      simp [Piece.text, Text.lineFeeds]
    have last : (Position.after ⟨s.start, s.line⟩ (Piece.unclosed body).text).line =
        s.line + Text.lineFeeds body := congrArg (s.line + ·) feeds
    rw [line, Placed.finding?, last]
    exact congrArg some (reportFound _ _)
  | _ => exact congrArg some (foundNothing _).symm

def taken (s : Scanner) (p : Piece) (rest : Text) : Scanner :=
  ({ s with start := s.current, startLine := s.line }.past p.text rest).found
    (Placed.finding? ⟨p, ⟨s.current, s.line⟩⟩).toList

theorem scanTokenPiece {s : Scanner} {p : Piece} {before rest : Text} (stands : p.Stands rest)
    (source : s.source = before ++ s.ahead) (current : s.current = before.byteLength)
    (ahead : s.ahead = p.text ++ rest) : s.scanToken = some (s.taken p rest) := by
  have holds : Holds { s with start := s.current, startLine := s.line } before [] := ⟨source, current, current⟩
  obtain ⟨c, next, read⟩ := dispatchPiece stands holds ahead
  have settled := settlePiece stands.wellFormed holds rfl ahead
  unfold scanToken
  dsimp only
  rw [next]
  dsimp only
  rw [read, Option.bind_some]
  exact settled

theorem atEndExact {s : Scanner} {before : Text} (source : s.source = before ++ s.ahead)
    (current : s.current = before.byteLength) : s.atEnd = s.ahead.isEmpty := by
  rw [atEnd, source, current, Text.byteLengthAppend]
  cases s.ahead with
  | nil => simp [Text.byteLength]
  | cons c rest =>
    have size := c.utf8Size_pos
    refine decide_eq_false ?_
    simp only [Text.byteLength, List.foldr_cons]
    omega

theorem scanAllEnd {s : Scanner} (ended : s.atEnd = true) : s.scanAll = some s := by
  rw [scanAll, if_pos ended]

theorem scanAllStep {s t : Scanner} (going : s.atEnd = false) (step : s.scanToken = some t)
    (shrinks : t.ahead.length < s.ahead.length) : s.scanAll = t.scanAll := by
  rw [scanAll, going, step]
  exact if_pos shrinks

structure Drains (s : Scanner) (findings : List Finding) (t : Scanner) : Prop where
  source : t.source = s.source
  current : t.current = s.current + s.ahead.byteLength
  line : t.line = s.line + s.ahead.lineFeeds
  tokens : t.tokens = s.tokens ++ findings.filterMap Finding.token?
  errorCount : t.errorCount = s.errorCount + (findings.filterMap Finding.error?).length
  entries : t.entries = s.entries ++ findings.flatMap Finding.entries

theorem drainsTaken {s t : Scanner} {p : Piece} {rest : Text} {later : List Finding}
    (ahead : s.ahead = p.text ++ rest) (drains : Drains (s.taken p rest) later t) :
    Drains s ((Placed.finding? ⟨p, ⟨s.current, s.line⟩⟩).toList ++ later) t := by
  obtain ⟨source, current, line, tokens, errorCount, entries⟩ := drains
  simp only [taken, found, past] at source current line tokens errorCount entries
  constructor
  · exact source
  · rw [current, ahead, Text.byteLengthAppend, Nat.add_assoc]
  · rw [line, ahead, Text.lineFeedsAppend, Nat.add_assoc]
  · rw [tokens, List.filterMap_append, List.append_assoc]
  · rw [errorCount, List.filterMap_append, List.length_append, Nat.add_assoc]
  · rw [entries, List.flatMap_append, List.append_assoc]

theorem scanAllPieces {s : Scanner} {before : Text} (source : s.source = before ++ s.ahead)
    (current : s.current = before.byteLength) :
    ∃ t, s.scanAll = some t ∧ Drains s (Position.findings ⟨s.current, s.line⟩ (Piece.cut s.ahead)) t := by
  generalize left : s.ahead = ahead
  induction ahead using Piece.pieceInduction generalizing s before with
  | nothing =>
    have ended : s.atEnd = true := by rw [atEndExact source current, left]; rfl
    refine ⟨s, scanAllEnd ended, ?_⟩
    rw [Piece.cutEmpty]
    constructor <;> simp [left, Position.findings, Position.place, Text.byteLength, Text.lineFeeds]
  | piece p rest stands ih =>
    obtain ⟨c, cs, text⟩ := Piece.textNonempty stands.wellFormed
    have going : s.atEnd = false := by rw [atEndExact source current, left, text]; rfl
    have shrinks : rest.length < s.ahead.length := by
      rw [left, text, List.length_append, List.length_cons]
      omega
    -- What is read grows by the piece's text and the cursor with it, so the next turn starts alike.
    have sourceBehind : (s.taken p rest).source = (before ++ p.text) ++ (s.taken p rest).ahead := by
      rw [List.append_assoc]
      exact source.trans (congrArg _ left)
    have currentBehind : (s.taken p rest).current = (before ++ p.text).byteLength := by
      rw [Text.byteLengthAppend, ← current]
      rfl
    obtain ⟨t, scanned, drains⟩ := ih sourceBehind currentBehind rfl
    refine ⟨t, (scanAllStep going (scanTokenPiece stands source current left) shrinks).trans scanned, ?_⟩
    rw [Piece.cutStands stands, Position.findingsCons]
    exact drainsTaken left drains

theorem entriesEvents (findings : List Finding) :
    (findings.flatMap Finding.entries).filterMap Entry.event? = findings.map Finding.event := by
  induction findings with
  | nil => rfl
  | cons f rest ih =>
    rw [List.flatMap_cons, List.filterMap_append, ih]
    cases f <;> rfl

theorem entriesDiagnostics (findings : List Finding) :
    (findings.flatMap Finding.entries).filterMap Entry.diagnostic? = findings.filterMap Finding.report? := by
  induction findings with
  | nil => rfl
  | cons f rest ih =>
    rw [List.flatMap_cons, List.filterMap_append, ih]
    cases f <;> rfl

theorem eventErrors (findings : List Finding) :
    (findings.map Finding.event).filterMap Event.error? = findings.filterMap Finding.error? := by
  rw [List.filterMap_map]
  exact List.filterMap_congr fun f _ => by cases f <;> rfl

theorem scanEvents (source : Text) : (Scan.ofText source).events =
    .scanStarted (Scan.ofText source).finish.offset :: (Scan.ofText source).findings.map Finding.event ++
      [.scanFinished (Scan.ofText source).tokens.length (Scan.ofText source).errors.length
        (Scan.ofText source).finish.line] := by
  rw [Scan.events, Scan.entries, List.filterMap_append, ← entriesEvents]
  rfl

theorem scanDiagnostics (source : Text) :
    (Scan.ofText source).entries.filterMap Entry.diagnostic? = (Scan.ofText source).diagnostics := by
  rw [Scan.entries, List.filterMap_append, Scan.diagnosticsOf, ← entriesDiagnostics]
  exact List.append_nil _

theorem scanTokensExact (source : Text) : ∃ s, (fresh source).scanTokens = some s ∧ s.scanned = true ∧
    s.tokens = (Scan.ofText source).tokens ∧ s.entries = (Scan.ofText source).entries := by
  have start := scanAllPieces (s := (fresh source).tell [.event (.scanStarted source.byteLength)])
    (List.nil_append source).symm rfl
  obtain ⟨s, scanned, drains⟩ := start
  have line : s.line = (Scan.ofText source).finish.line := drains.line
  have tokens : s.finish.tokens = (Scan.ofText source).tokens := by
    rw [Scan.tokens, ← line]
    exact congrArg (· ++ [Token.eof s.line]) drains.tokens
  have errors : s.errorCount = (Scan.ofText source).errors.length := by
    rw [drains.errorCount]
    exact Nat.zero_add _
  refine ⟨s.finish, congrArg (Option.map finish) scanned, rfl, tokens, ?_⟩
  have told : s.finish.entries =
      s.entries ++ [.event (.scanFinished s.finish.tokens.length s.errorCount s.line)] := rfl
  have bytes : (Scan.ofText source).finish.offset = source.byteLength := Nat.zero_add _
  rw [told, drains.entries, tokens, errors, line, Scan.entries, bytes]
  rfl

theorem answerExact {source : Text} {s : Scanner} (answered : (fresh source).scanTokens = some s) :
    s.tokens = (Scan.ofText source).tokens ∧ s.errors = (Scan.ofText source).errors ∧
    s.diagnostics = (Scan.ofText source).diagnostics ∧ s.entries = (Scan.ofText source).entries := by
  obtain ⟨t, again, _, tokens, entries⟩ := scanTokensExact source
  obtain rfl := Option.some.inj (again.symm.trans answered)
  refine ⟨tokens, ?_, ?_, entries⟩
  · have events : t.events = (Scan.ofText source).events := congrArg (List.filterMap Entry.event?) entries
    rw [Scanner.errors, events, scanEvents, List.filterMap_append, Scan.errors, ← eventErrors]
    exact List.append_nil _
  · rw [Scanner.diagnostics, entries, scanDiagnostics]

theorem scanAnswers (source : Text) : ∃ s, (fresh source).scanTokens = some s ∧
    s.tokens = (Scan.ofText source).tokens ∧ s.errors = (Scan.ofText source).errors ∧
    s.diagnostics = (Scan.ofText source).diagnostics := by
  obtain ⟨s, answered, _⟩ := scanTokensExact source
  obtain ⟨tokens, errors, diagnostics, _⟩ := answerExact answered
  exact ⟨s, answered, tokens, errors, diagnostics⟩

end Scanner
end LoxLexer
