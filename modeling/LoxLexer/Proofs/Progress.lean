import LoxLexer.Proofs.Cursor
/-! The cursor in step with its source. The offset always cuts the source where the characters ahead begin, and the
line is the one it stands on: in a turn the two are moved together, a character at a time. So whatever is taken out of
the source by offsets is there, each turn reads something, and the turns come to an end. -/
namespace LoxLexer.Scanner

/- The offset is in the source and between two characters, what is ahead is all that is behind it, and the line feeds
before it are counted. So the line fits a word if the source does, the end of the source is the end of what is ahead,
and the second character from here is the one that is peeked at one character further. -/
structure InStep (s : Scanner) : Prop where
  inRange : s.current ≤ s.source.byteLength
  ahead : s.source.behind s.current = some s.ahead
  line : ∃ before, s.source.slice 0 s.current = some before ∧ s.line = 1 + before.count '\n'
  lineBound : s.line ≤ 1 + s.source.byteLength
  lineFits : 1 + s.source.byteLength < UInt64.size → s.line < UInt64.size
  atEnd : s.atEnd = s.ahead.isEmpty
  peekTwo : s.peekTwo = some s.advance.peek

structure HasRead (s : Scanner) (before : Text) : Prop where
  source : s.source = before ++ s.ahead
  current : s.current = before.byteLength
  line : s.line = 1 + before.count '\n'

def opened (s : Scanner) : Scanner := { s with start := s.current, startLine := s.line }

/- The scanner at any moment of a turn: its lexeme is begun, and it goes on by advancing only, a line feed counted as it
is passed. -/
inductive Amid (s : Scanner) : Scanner → Prop where
  | opened : Amid s s.opened
  | feed {t : Scanner} {rest : Text} (amid : Amid s t) (next : t.ahead = '\n' :: rest) :
      Amid s { t.advance with line := t.line + 1 }
  | other {t : Scanner} {c : Char} {rest : Text} (amid : Amid s t) (next : t.ahead = c :: rest) (quiet : c ≠ '\n') :
      Amid s t.advance

structure Moment (s t : Scanner) : Prop where
  source : t.source = s.source
  inStep : t.InStep
  lexeme : ∃ text, t.lexeme = some text ∧ s.ahead = text ++ t.ahead
  matched : ∀ c, c ≠ '\n' → Amid s (t.matchOne c).2
  further : ∀ keep, keep '\n' = false → Amid s (t.advanceWhile keep)
  string : Amid s t.advanceString

structure Turn (s t : Scanner) : Prop where
  scanned : s.scanToken = some t
  amid : ∃ c verdict u, s.peek = some c ∧ s.opened.advance.dispatch c = some (verdict, u) ∧ Amid s u ∧
    settle (verdict, u) = some t
  reads : t.ahead.length < s.ahead.length
  finds : ∃ found : Option Finding, t.tokens = s.tokens ++ (found.bind Finding.token?).toList ∧
    t.errorCount = s.errorCount + (found.bind Finding.error?).toList.length ∧
    t.entries = s.entries ++ found.toList.flatMap Finding.entries

structure Quoted (a : Token) : Prop where
  marks : 2 ≤ a.lexeme.byteLength
  value : ∃ body, a.lexeme.slice 1 (a.lexeme.byteLength - 1) = some body ∧ a.literal = some (.string body)

inductive Turns (source : Text) : Nat → Scanner → Prop where
  | start : Turns source 0 ((fresh source).tell [.event (.scanStarted source.byteLength)])
  | turn {n : Nat} {s t : Scanner} (turns : Turns source n s) (going : s.atEnd = false)
      (scanned : s.scanToken = some t) : Turns source (n + 1) t

namespace HasRead

variable {s : Scanner} {before more rest : Text}

theorem past (read : s.HasRead before) (ahead : s.ahead = more ++ rest) : (s.past more rest).HasRead (before ++ more) := by
  obtain ⟨source, current, line⟩ := read
  constructor
  · rw [List.append_assoc]
    exact source.trans (congrArg _ ahead)
  · rw [Text.byteLengthAppend, ← current]
    rfl
  · rw [List.count_append, ← Nat.add_assoc, ← line]
    rfl

theorem inStep (read : s.HasRead before) : s.InStep := by
  obtain ⟨source, current, line⟩ := read
  have whole : s.source.byteLength = before.byteLength + s.ahead.byteLength :=
    (congrArg Text.byteLength source).trans (Text.byteLengthAppend _ _)
  have feeds : before.count '\n' ≤ before.byteLength := Text.lineFeedsBound before
  have behind : s.source.behind s.current = some s.ahead := by rw [current, source]; exact Text.behindExact _ _
  have slice : s.source.slice 0 s.current = some before := by
    have front := Text.sliceExact [] before s.ahead
    rw [← current] at front
    simpa [Text.byteLength, source] using front
  have second : s.advance.peek = s.ahead[1]? := by
    cases ahead : s.ahead with
    | nil => simp [advance, peek, ahead]
    | cons c rest => simp [advance, peek, ahead, List.head?_eq_getElem?]
  refine ⟨by omega, behind, ⟨before, slice, line⟩, by omega, fun fits => by omega, atEndExact source current, ?_⟩
  rw [Scanner.peekTwo, behind, second]
  rfl

end HasRead

theorem stringStops {s : Scanner} {c : Char} (next : s.advanceString.peek = some c) : c = '"' := by
  fun_induction advanceString s with
  | case1 s ended => cases ended.symm.trans next
  | case2 s quote => exact (Option.some.inj (quote.symm.trans next)).symm
  | case3 s feed notQuote ih => exact ih next
  | case4 s d other notQuote notFeed ih => exact ih next

namespace Amid

variable {s t u : Scanner} {keep : Char → Bool} {verdict : Verdict}

theorem holds {before : Text} (read : s.HasRead before) (amid : Amid s t) :
    ∃ text, s.ahead = text ++ t.ahead ∧ t.Holds before text ∧ t.HasRead (before ++ text) := by
  have further {t : Scanner} {c : Char} {rest text : Text} (next : t.ahead = c :: rest)
      (ahead : s.ahead = text ++ t.ahead) (lexeme : t.Holds before text) (read : t.HasRead (before ++ text)) :
      ∃ text, s.ahead = text ++ (t.past [c] rest).ahead ∧ (t.past [c] rest).Holds before text ∧
        (t.past [c] rest).HasRead (before ++ text) := by
    refine ⟨text ++ [c], ?_, lexeme.past next, ?_⟩
    · rw [ahead, next, List.append_assoc]
      rfl
    · rw [← List.append_assoc]
      exact read.past next
  induction amid with
  | opened =>
    have same : s.opened.HasRead (before ++ []) := by
      rw [List.append_nil]
      exact ⟨read.source, read.current, read.line⟩
    exact ⟨[], rfl, ⟨read.source, read.current, read.current⟩, same⟩
  | feed amid next ih =>
    obtain ⟨text, ahead, lexeme, read⟩ := ih
    rw [advanceFeed next]
    exact further next ahead lexeme read
  | other amid next quiet ih =>
    obtain ⟨text, ahead, lexeme, read⟩ := ih
    rw [advanceCons next quiet]
    exact further next ahead lexeme read

theorem peeked {c : Char} (amid : Amid s t) (next : t.peek = some c) (quiet : c ≠ '\n') : Amid s t.advance := by
  obtain ⟨rest, ahead⟩ := List.head?_eq_some_iff.mp next
  exact amid.other ahead quiet

theorem advanceWhile (quiet : keep '\n' = false) (amid : Amid s t) : Amid s (t.advanceWhile keep) := by
  fun_induction Scanner.advanceWhile keep t with
  | case1 => exact amid
  | case2 t c next kept ih =>
    refine ih (amid.peeked next ?_)
    rintro rfl
    rw [quiet] at kept
    contradiction
  | case3 => exact amid

theorem advanceString (amid : Amid s t) : Amid s t.advanceString := by
  fun_induction Scanner.advanceString t with
  | case1 => exact amid
  | case2 => exact amid
  | case3 t next notQuote ih =>
    obtain ⟨rest, ahead⟩ := List.head?_eq_some_iff.mp next
    exact ih (amid.feed ahead)
  | case4 t c next notQuote notFeed ih => exact ih (amid.peeked next notFeed)

theorem matchOne {c : Char} (quiet : c ≠ '\n') (amid : Amid s t) : Amid s (t.matchOne c).2 := by
  unfold Scanner.matchOne
  split
  · rename_i next
    exact amid.peeked next quiet
  · exact amid

theorem string (amid : Amid s t) (read : t.string = some (verdict, u)) : Amid s u := by
  have inside := amid.advanceString
  unfold Scanner.string at read
  dsimp only at read
  split at read
  · obtain ⟨_, _, same⟩ := Option.map_eq_some_iff.mp read
    cases same
    exact inside
  · rename_i c next
    cases Option.some.inj read
    exact inside.peeked next (by rw [stringStops next]; decide)

theorem number (amid : Amid s t) (read : t.number = some (verdict, u)) : Amid s u := by
  have digits {t : Scanner} (amid : Amid s t) : Amid s (t.advanceWhile Char.isDigit) := amid.advanceWhile rfl
  unfold Scanner.number at read
  dsimp only at read
  split at read
  · rename_i point
    obtain ⟨_, _, same⟩ := Option.map_eq_some_iff.mp read
    cases same
    split
    · exact digits ((digits amid).peeked point (by decide))
    · exact digits amid
  · cases Option.some.inj read
    exact digits amid

theorem word (amid : Amid s t) (read : t.word = some (verdict, u)) : Amid s u := by
  obtain ⟨_, _, same⟩ := Option.map_eq_some_iff.mp read
  cases same
  exact amid.advanceWhile (by decide)

theorem slash (amid : Amid s t) (read : t.slash = (verdict, u)) : Amid s u := by
  obtain rfl : t.slash.2 = u := congrArg Prod.snd read
  have second := amid.matchOne (show '/' ≠ '\n' by decide)
  unfold Scanner.slash
  dsimp only
  split
  · exact second.advanceWhile rfl
  · exact second

theorem mark {short : Mark} (amid : Amid s t) (read : t.mark short = (verdict, u)) : Amid s u := by
  obtain rfl : (t.mark short).2 = u := congrArg Prod.snd read
  unfold Scanner.mark
  split
  · exact amid
  · exact amid.matchOne (by decide)

theorem dispatch {c : Char} {rest : Text} (amid : Amid s t) (next : t.ahead = c :: rest)
    (read : t.advance.dispatch c = some (verdict, u)) : Amid s u := by
  by_cases feed : c = '\n'
  · subst feed
    have counted := amid.feed next
    rw [advanceFeed next] at counted
    rw [dispatchFeed next] at read
    cases read
    exact counted
  · have begun := amid.other next feed
    unfold Scanner.dispatch at read
    split at read
    · split at read
      · exact begun.slash (Option.some.inj read)
      · exact begun.mark (Option.some.inj read)
    split at read
    · cases read
      exact begun
    split at read
    · exact begun.string read
    split at read
    · exact begun.number read
    split at read
    · exact begun.word read
    · cases read
      exact begun

theorem moment {before : Text} (read : s.HasRead before) (amid : Amid s t) : Moment s t := by
  obtain ⟨text, ahead, lexeme, further⟩ := amid.holds read
  refine ⟨?_, further.inStep, ⟨text, lexeme.lexeme, ahead⟩, fun c quiet => amid.matchOne quiet,
    fun keep quiet => amid.advanceWhile quiet, amid.advanceString⟩
  rw [further.source, read.source, ahead, List.append_assoc]

end Amid

theorem quotedString {p : Piece} {line : Nat} {a : Token} (shape : p.WellFormed) (told : p.token? line = some a)
    (named : a.kind = .string) : Quoted a := by
  obtain ⟨kind, own, rfl⟩ := Option.map_eq_some_iff.mp told
  obtain rfl : kind = .string := named
  obtain ⟨body, slice, value⟩ := Option.map_eq_some_iff.mp (literalExact shape own)
  refine ⟨?_, body, slice, value.symm⟩
  rw [Text.slice] at slice
  split at slice
  · dsimp only
    omega
  · contradiction

theorem foundOne (s : Scanner) (finding : Option Finding) :
    (s.found finding.toList).tokens = s.tokens ++ (finding.bind Finding.token?).toList ∧
    (s.found finding.toList).errorCount = s.errorCount + (finding.bind Finding.error?).toList.length ∧
    (s.found finding.toList).entries = s.entries ++ finding.toList.flatMap Finding.entries := by
  match finding with
  | none | some (.token _) | some (.error _) => exact ⟨rfl, rfl, rfl⟩

theorem turnTakes {s : Scanner} {before : Text} (read : s.HasRead before) (going : s.atEnd = false) :
    ∃ p rest t, Turn s t ∧ p.WellFormed ∧ t = s.taken p rest ∧ t.HasRead (before ++ p.text) := by
  obtain ⟨c, cs, left⟩ : ∃ c cs, s.ahead = c :: cs := by
    rw [atEndExact read.source read.current] at going
    exact List.exists_cons_of_ne_nil (List.isEmpty_eq_false_iff.mp going)
  have stands := Piece.firstStands c cs
  have ahead : s.ahead = (Piece.first c cs).1.text ++ (Piece.first c cs).2 := left.trans (Piece.firstText c cs).symm
  generalize (Piece.first c cs).1 = p at stands ahead
  generalize (Piece.first c cs).2 = rest at stands ahead
  have lexeme : s.opened.Holds before [] := ⟨read.source, read.current, read.current⟩
  have behind := read.past ahead
  refine ⟨p, rest, s.taken p rest, ?_, stands.wellFormed, rfl, ⟨behind.source, behind.current, behind.line⟩⟩
  constructor
  · exact scanTokenPiece stands read.source read.current ahead
  · obtain ⟨d, next, dispatched⟩ := dispatchPiece stands lexeme ahead
    obtain ⟨more, there⟩ := List.head?_eq_some_iff.mp next
    exact ⟨d, _, _, next, dispatched, Amid.opened.dispatch there dispatched,
      settlePiece stands.wellFormed lexeme rfl ahead⟩
  · obtain ⟨d, ds, text⟩ := Piece.textNonempty stands.wellFormed
    rw [ahead, text, List.length_append, List.length_cons]
    exact Nat.lt_add_of_pos_left (Nat.succ_pos _)
  · exact ⟨_, foundOne (s.opened.past p.text rest) _⟩

structure Kept (source : Text) (n : Nat) (s : Scanner) : Prop where
  whole : s.source = source
  read : ∃ before, s.HasRead before
  turns : n + s.ahead.length ≤ source.length
  strings : ∀ a ∈ s.tokens, a.kind = .string → Quoted a

theorem keptStart (source : Text) : Kept source 0 ((fresh source).tell [.event (.scanStarted source.byteLength)]) :=
  ⟨rfl, ⟨[], rfl, rfl, rfl⟩, Nat.le_of_eq (Nat.zero_add _), fun _ none => absurd none List.not_mem_nil⟩

theorem keptTurn {source : Text} {n : Nat} {s : Scanner} (kept : Kept source n s) (going : s.atEnd = false) :
    ∃ t, Turn s t ∧ Kept source (n + 1) t := by
  obtain ⟨whole, ⟨before, read⟩, turns, strings⟩ := kept
  obtain ⟨p, rest, t, turn, shape, rfl, behind⟩ := turnTakes read going
  refine ⟨_, turn, whole, ⟨_, behind⟩, ?_, fun a member named => ?_⟩
  · have shrinks := turn.reads
    omega
  · have told : (Placed.finding? ⟨p, ⟨s.current, s.line⟩⟩).bind Finding.token? = p.token? s.line := by
      cases p <;> rfl
    rcases List.mem_append.mp member with old | new
    · exact strings a old named
    · obtain ⟨f, found, token⟩ := List.mem_filterMap.mp new
      rw [Option.mem_toList.mp found] at told
      exact quotedString shape (told.symm.trans token) named

theorem turnsKept {source : Text} {n : Nat} {s : Scanner} (turns : Turns source n s) : Kept source n s := by
  induction turns with
  | start => exact keptStart source
  | turn turns going scanned ih =>
    obtain ⟨t, turn, kept⟩ := keptTurn ih going
    obtain rfl := Option.some.inj (turn.scanned.symm.trans scanned)
    exact kept

theorem turnsEnd {source : Text} {n : Nat} {s : Scanner} (turns : Turns source n s) :
    ∃ m t, Turns source m t ∧ t.atEnd = true ∧ s.scanAll = some t := by
  generalize left : s.ahead.length = length
  induction length using Nat.strongRecOn generalizing n s with
  | ind length ih =>
    cases ended : s.atEnd with
    | true => exact ⟨n, s, turns, ended, scanAllEnd ended⟩
    | false =>
      obtain ⟨t, turn, _⟩ := keptTurn (turnsKept turns) ended
      obtain ⟨m, u, further, stopped, scanned⟩ := ih _ (left ▸ turn.reads) (turns.turn ended turn.scanned) rfl
      exact ⟨m, u, further, stopped, (scanAllStep ended turn.scanned turn.reads).trans scanned⟩

theorem cursorStaysInStep (source : Text) :
    (∀ n s, Turns source n s → s.source = source ∧ s.InStep ∧ n + s.ahead.length ≤ source.length ∧
      (s.atEnd = false → ∃ t, Turn s t) ∧ (∀ t, Amid s t → Moment s t) ∧
      ∀ a ∈ s.tokens, a.kind = .string → Quoted a) ∧
    ∃ n s, Turns source n s ∧ n ≤ source.length ∧ s.atEnd = true ∧ (fresh source).scanTokens = some s.finish := by
  constructor
  · intro n s turns
    have kept := turnsKept turns
    obtain ⟨before, read⟩ := kept.read
    refine ⟨kept.whole, read.inStep, kept.turns, fun going => ?_, fun t amid => amid.moment read, kept.strings⟩
    obtain ⟨t, turn, _⟩ := keptTurn kept going
    exact ⟨t, turn⟩
  · obtain ⟨n, s, turns, ended, scanned⟩ := turnsEnd (Turns.start : Turns source 0 _)
    have bound := (turnsKept turns).turns
    exact ⟨n, s, turns, by omega, ended, congrArg (Option.map finish) scanned⟩

end LoxLexer.Scanner
