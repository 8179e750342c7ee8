import LoxLexer.Proofs.Cursor
import LoxLexer.Proofs.RoundTrip
/-! Line endings. A carriage return before a line feed is a blank between lexemes, the last character of a comment or
a character of a string, and ends no line itself. So a source that goes without them has the same tokens and errors on
the same lines, and only its strings go without them too. -/
namespace LoxLexer

/- Only what stands directly before a line feed goes: of two carriage returns before it the first stays. -/
def Text.plainBreaks : Text → Text
  | [] => []
  | c :: rest => if c = '\r' ∧ rest.head? = some '\n' then plainBreaks rest else c :: plainBreaks rest

def Literal.plainBreaks : Literal → Literal
  | string body => string body.plainBreaks
  | number value => number value

def Token.plainBreaks (t : Token) : Token :=
  { t with lexeme := t.lexeme.plainBreaks, literal := t.literal.map Literal.plainBreaks }

def LexicalError.plainBreaks : LexicalError → LexicalError
  | unexpectedCharacter line character => unexpectedCharacter line character
  | unterminatedString line start => unterminatedString line start.plainBreaks

def Piece.plainBreaks : Piece → Piece
  | string body => string body.plainBreaks
  | unclosed body => unclosed body.plainBreaks
  | p => p

def Finding.plainBreaks : Finding → Finding
  | token t => token t.plainBreaks
  | error e => error e.plainBreaks

namespace Text

theorem plainBreaksKept {c : Char} {rest : Text} (kept : c = '\r' → rest.head? ≠ some '\n') :
    plainBreaks (c :: rest) = c :: plainBreaks rest := by
  rw [plainBreaks, if_neg fun both => kept both.1 both.2]

theorem plainBreaksGone {rest : Text} (feed : rest.head? = some '\n') :
    plainBreaks ('\r' :: rest) = plainBreaks rest := by
  rw [plainBreaks, if_pos ⟨rfl, feed⟩]

theorem plainBreaksAppend {text rest : Text} (apart : text.getLast? = some '\r' → rest.head? ≠ some '\n') :
    plainBreaks (text ++ rest) = plainBreaks text ++ plainBreaks rest := by
  induction text with
  | nil => rfl
  | cons c text ih =>
    cases text with
    | nil =>
      have kept : c = '\r' → rest.head? ≠ some '\n' := fun same => apart (congrArg some same)
      rw [List.singleton_append, plainBreaksKept kept, plainBreaksKept (by simp)]
      rfl
    | cons d more =>
      have behind := ih apart
      have next : (d :: more ++ rest).head? = (d :: more).head? := rfl
      rw [List.cons_append, plainBreaks, plainBreaks, next, behind]
      split <;> rfl

theorem plainBreaksSame {text : Text} (plain : ¬ ['\r', '\n'] <:+: text) : plainBreaks text = text := by
  induction text with
  | nil => rfl
  | cons c text ih =>
    have kept : c = '\r' → text.head? ≠ some '\n' := by
      rintro rfl feed
      obtain ⟨rest, rfl⟩ := List.head?_eq_some_iff.mp feed
      exact plain ⟨[], rest, rfl⟩
    rw [plainBreaksKept kept, ih fun inside => plain (inside.trans (List.suffix_cons c text).isInfix)]

theorem plainBreaksFront {text : Text} (free : '\r' ∉ text) (rest : Text) :
    plainBreaks (text ++ rest) = text ++ plainBreaks rest := by
  have apart : text.getLast? = some '\r' → rest.head? ≠ some '\n' :=
    fun last => absurd (List.mem_of_getLast? last) free
  rw [plainBreaksAppend apart, plainBreaksSame fun ending => free (ending.subset List.mem_cons_self)]

theorem plainBreaksSingle {text : Text} (single : '\n' ∉ text) : plainBreaks text = text :=
  plainBreaksSame fun ending => single (ending.subset (by decide))

theorem plainBreaksLines (text : Text) : (plainBreaks text).lineFeeds = text.lineFeeds := by
  induction text with
  | nil => rfl
  | cons c text ih =>
    simp only [lineFeeds] at ih
    rw [plainBreaks]
    split
    · rename_i gone
      simp [lineFeeds, ih, gone.1]
    · simp [lineFeeds, List.count_cons, ih]

theorem plainBreaksLess (text : Text) : (plainBreaks text).Sublist text := by
  induction text with
  | nil => exact .slnil
  | cons c text ih =>
    rw [plainBreaks]
    split
    · exact ih.cons c
    · exact ih.cons_cons c

theorem plainBreaksHead {c : Char} {text more : Text} (same : plainBreaks text = c :: more) :
    c = '\n' ∨ ∃ rest, text = c :: rest ∧ plainBreaks rest = more := by
  induction text with
  | nil => contradiction
  | cons d text ih =>
    rw [plainBreaks] at same
    split at same
    · rename_i gone
      rcases ih same with feed | ⟨rest, rfl, _⟩
      · exact .inl feed
      · exact .inl (Option.some.inj gone.2)
    · obtain ⟨rfl, behind⟩ := List.cons.inj same
      exact .inr ⟨text, rfl, behind⟩

theorem plainBreaksStretch {body : Text} (single : '\n' ∉ body) (rest : Text) :
    ∃ left, '\n' ∉ left ∧ plainBreaks (body ++ rest) = left ++ plainBreaks rest := by
  induction body with
  | nil => exact ⟨[], List.not_mem_nil, rfl⟩
  | cons c body ih =>
    obtain ⟨left, inside, text⟩ := ih (List.not_mem_of_not_mem_cons single)
    rw [List.cons_append, plainBreaks, text]
    split
    · exact ⟨left, inside, rfl⟩
    · have other : '\n' ≠ c := fun same => single (same ▸ List.mem_cons_self)
      exact ⟨c :: left, List.not_mem_cons_of_ne_of_not_mem other inside, rfl⟩

end Text

theorem haltsPlain {keep : Char → Bool} {rest : Text} (feed : keep '\n' = false) (halts : Halts keep rest) :
    Halts keep rest.plainBreaks := by
  intro c next
  obtain ⟨more, same⟩ := List.head?_eq_some_iff.mp next
  rcases Text.plainBreaksHead same with rfl | ⟨tail, rfl, _⟩
  · exact feed
  · exact haltsCons.mp halts

namespace Piece

theorem endsPlain {p : Piece} {rest : Text} (ends : p.Ends rest) : p.Ends rest.plainBreaks := by
  cases p with
  | mark m => exact ⟨fun grows => haltsPlain rfl (ends.1 grows), fun slash => haltsPlain rfl (ends.2 slash)⟩
  | word letters => exact haltsPlain rfl ends
  | comment body => exact haltsPlain rfl ends
  | unclosed body =>
    obtain rfl : rest = [] := ends
    rfl
  | number n =>
    refine ⟨haltsPlain rfl ends.1, fun whole d more same => ?_⟩
    rcases Text.plainBreaksHead same with feed | ⟨tail, rfl, behind⟩
    · contradiction
    rcases Text.plainBreaksHead behind with rfl | ⟨others, rfl, _⟩
    · rfl
    · exact ends.2 whole d others rfl
  | _ => trivial

theorem standsPlain {p : Piece} {rest : Text} (stands : p.Stands rest) : p.plainBreaks.Stands rest.plainBreaks := by
  obtain ⟨shape, ends⟩ := stands
  cases p with
  | string body => exact ⟨fun member => shape ((Text.plainBreaksLess body).subset member), trivial⟩
  | unclosed body => exact ⟨fun member => shape ((Text.plainBreaksLess body).subset member), endsPlain ends⟩
  | _ => exact ⟨shape, endsPlain ends⟩

theorem markUnbroken (m : Mark) : '\r' ∉ m.spelling ∧ '\n' ∉ m.spelling := by
  have unbroken : ∀ m ∈ Mark.all, '\r' ∉ m.spelling ∧ '\n' ∉ m.spelling := by decide
  exact unbroken m (Mark.allComplete m)

theorem wordUnbroken {letters : Text} (shape : IsWord letters) : '\r' ∉ letters ∧ '\n' ∉ letters :=
  ⟨insideFree (wordParts shape) (by decide), insideFree (wordParts shape) (by decide)⟩

theorem numberUnbroken {n : Numeral} (shape : n.WellFormed) : '\r' ∉ n.text ∧ '\n' ∉ n.text :=
  ⟨fun member => absurd (numeralParts shape _ member) (by decide),
    fun member => absurd (numeralParts shape _ member) (by decide)⟩

theorem plainItself {p : Piece} (shape : p.WellFormed) (closed : ∀ body, p ≠ string body)
    (ended : ∀ body, p ≠ unclosed body) : p.text.plainBreaks = p.text := by
  cases p with
  | mark m => exact Text.plainBreaksSingle (markUnbroken m).2
  | word letters => exact Text.plainBreaksSingle (wordUnbroken shape).2
  | number n => exact Text.plainBreaksSingle (numberUnbroken shape).2
  | comment body =>
    have inside : '\n' ∉ body := shape
    exact Text.plainBreaksSingle (by simpa [text] using inside)
  | string body => exact absurd rfl (closed body)
  | unclosed body => exact absurd rfl (ended body)
  | _ => exact Text.plainBreaksKept (by simp)

theorem plainText {p : Piece} (shape : p.WellFormed) : p.plainBreaks.text = p.text.plainBreaks := by
  cases p with
  | string body =>
    have apart : body.getLast? = some '\r' → ['"'].head? ≠ some '\n' := fun _ => by decide
    have inside := Text.plainBreaksAppend apart
    have whole := @Text.plainBreaksFront ['"'] (by decide) (body ++ ['"'])
    rw [inside] at whole
    exact whole.symm
  | unclosed body => exact (@Text.plainBreaksFront ['"'] (by decide) body).symm
  | _ => exact (plainItself shape (by simp) (by simp)).symm

theorem plainToken {p : Piece} (shape : p.WellFormed) (line : Nat) :
    p.plainBreaks.token? line = (p.token? line).map Token.plainBreaks := by
  have kind : p.plainBreaks.kind? = p.kind? := by cases p <;> rfl
  have literal : p.plainBreaks.literal? = p.literal?.map Literal.plainBreaks := by cases p <;> rfl
  rw [token?, token?, kind, literal, plainText shape, Option.map_map]
  rfl

theorem plainFinding {p : Piece} (shape : p.WellFormed) (place : Position) :
    Placed.finding? ⟨p.plainBreaks, place⟩ = (Placed.finding? ⟨p, place⟩).map Finding.plainBreaks := by
  have text := plainText shape
  have last : (place.after p.plainBreaks.text).line = (place.after p.text).line := by
    rw [Position.after, Position.after, text, Text.plainBreaksLines]
  have told : (p.plainBreaks.token? place.line).map Finding.token =
      ((p.token? place.line).map Finding.token).map Finding.plainBreaks := by
    rw [plainToken shape, Option.map_map, Option.map_map]
    rfl
  cases p with
  | unclosed body =>
    have error : LexicalError.unterminatedString (place.after (unclosed body).plainBreaks.text).line
        (unclosed body).plainBreaks.text = .unterminatedString (place.after (unclosed body).text).line
          (unclosed body).text.plainBreaks := by rw [last, text]
    exact congrArg (fun e => some (Finding.error e)) error
  | stray c => rfl
  | _ => exact told

structure Amounts (p : Piece) (pieces : List Piece) : Prop where
  lines : (joined pieces).lineFeeds = p.text.lineFeeds
  findings : ∀ place : Position, place.findings pieces = (place.findings [p]).map Finding.plainBreaks

theorem amountsPlain {p : Piece} (shape : p.WellFormed) : Amounts p [p.plainBreaks] := by
  constructor
  · rw [joined, List.flatMap_singleton, plainText shape, Text.plainBreaksLines]
  · intro place
    rw [Position.findingsCons, Position.findingsCons, plainFinding shape]
    cases Placed.finding? ⟨p, place⟩ <;> rfl

theorem cutApart {p : Piece} {rest : Text} (stands : p.Stands rest)
    (apart : p.text.getLast? = some '\r' → rest.head? ≠ some '\n') :
    cut (p.text ++ rest).plainBreaks = [p.plainBreaks] ++ cut rest.plainBreaks := by
  rw [Text.plainBreaksAppend apart, ← plainText stands.wellFormed, cutStands (standsPlain stands)]
  rfl

/- The carriage return that a line feed takes away is a blank of its own or the last character of a comment, for all
else ends in another character or at the end of the source. -/
theorem cutPlain {p : Piece} {rest : Text} (stands : p.Stands rest) :
    ∃ pieces, Amounts p pieces ∧ cut (p.text ++ rest).plainBreaks = pieces ++ cut rest.plainBreaks := by
  have shape := stands.wellFormed
  have free (none : '\r' ∉ p.text) : ∃ pieces, Amounts p pieces ∧
      cut (p.text ++ rest).plainBreaks = pieces ++ cut rest.plainBreaks :=
    ⟨_, amountsPlain shape, cutApart stands fun last => absurd (List.mem_of_getLast? last) none⟩
  cases p with
  | mark m => exact free (markUnbroken m).1
  | word letters => exact free (wordUnbroken shape).1
  | number n => exact free (numberUnbroken shape).1
  | lineFeed => exact free (by decide)
  | stray c =>
    have notBlank := (strayPlain shape).2.1
    refine free fun member => notBlank ?_
    rw [← List.mem_singleton.mp member]
    rfl
  | string body =>
    have last : (string body).text.getLast? = some '"' := List.getLast?_concat
    exact ⟨_, amountsPlain shape, cutApart stands fun same => absurd (last.symm.trans same) (by decide)⟩
  | unclosed body =>
    obtain rfl : rest = [] := stands.ends
    exact ⟨_, amountsPlain shape, cutApart stands fun _ => by simp⟩
  | blank c =>
    by_cases gone : c = '\r' ∧ rest.head? = some '\n'
    · obtain ⟨rfl, feed⟩ := gone
      refine ⟨[], ⟨rfl, fun place => rfl⟩, congrArg cut ?_⟩
      exact Text.plainBreaksGone feed
    · refine ⟨_, amountsPlain shape, cutApart stands fun last feed => gone ⟨?_, feed⟩⟩
      exact Option.some.inj last
  | comment body =>
    obtain ⟨left, inside, text⟩ := Text.plainBreaksStretch shape rest
    have opened := @Text.plainBreaksFront ['/', '/'] (by decide) (body ++ rest)
    rw [text] at opened
    have feeds {line : Text} (single : '\n' ∉ line) : (comment line).text.lineFeeds = 0 :=
      List.count_eq_zero_of_not_mem (by simpa [Piece.text] using single)
    refine ⟨[comment left], ⟨?_, fun place => rfl⟩, ?_⟩
    · rw [joined, List.flatMap_singleton, feeds inside, feeds shape]
    · have comment : (comment left).Stands rest.plainBreaks := ⟨inside, endsPlain stands.ends⟩
      exact (congrArg cut opened).trans (cutStands comment)

end Piece

namespace Position

theorem findingsPlain (source : Text) (place : Position) :
    place.findings (Piece.cut source.plainBreaks) = (place.findings (Piece.cut source)).map Finding.plainBreaks := by
  induction source using Piece.pieceInduction generalizing place with
  | nothing => rw [Text.plainBreaks, Piece.cutEmpty]; rfl
  | piece p rest stands ih =>
    obtain ⟨pieces, amounts, cuts⟩ := Piece.cutPlain stands
    have next : (place.after (Piece.joined pieces)).line = (place.after p.text).line := by
      rw [after, after, amounts.lines]
    rw [cuts, Piece.cutStands stands, findingsAppend, amounts.findings, sameLine next, ih,
      findingsHead place p (Piece.cut rest), List.map_append]

end Position

namespace Scan

theorem findingsPlain (source : Text) :
    (ofText source.plainBreaks).findings = (ofText source).findings.map Finding.plainBreaks :=
  Position.findingsPlain source Position.first

theorem tokensPlain (source : Text) :
    (ofText source.plainBreaks).tokens = (ofText source).tokens.map Token.plainBreaks := by
  have told : ∀ f : Finding, f.plainBreaks.token? = f.token?.map Token.plainBreaks := by
    intro f
    cases f <;> rfl
  have lexemes : (ofText source.plainBreaks).lexemes = (ofText source).lexemes.map Token.plainBreaks := by
    rw [lexemes, findingsPlain, viewChange told, lexemes]
  rw [tokens, tokens, lexemes, finishLine, finishLine, Text.plainBreaksLines, List.map_append]
  rfl

theorem errorsPlain (source : Text) :
    (ofText source.plainBreaks).errors = (ofText source).errors.map LexicalError.plainBreaks := by
  have told : ∀ f : Finding, f.plainBreaks.error? = f.error?.map LexicalError.plainBreaks := by
    intro f
    cases f <;> rfl
  rw [errors, errors, findingsPlain, viewChange told]

theorem diagnosticsPlain (source : Text) : (ofText source.plainBreaks).diagnostics = (ofText source).diagnostics := by
  rw [diagnostics, diagnostics, errorsPlain, List.map_map]
  exact List.map_congr_left fun e _ => by cases e <;> rfl

theorem plainUnlessEnding {source : Text} {t : Token} (member : t ∈ (ofText source).tokens)
    (changed : t.plainBreaks ≠ t) : t.kind = .string ∧ ['\r', '\n'] <:+: t.lexeme := by
  have same (lexeme : t.lexeme.plainBreaks = t.lexeme) (literal : t.literal.map Literal.plainBreaks = t.literal) :
      False := by
    refine changed ?_
    rw [Token.plainBreaks, lexeme, literal]
  rcases List.mem_append.mp member with lexeme | last
  · obtain ⟨p, shape, found⟩ := lexemeOrigin lexeme
    obtain ⟨role, text, literal⟩ := originRole found
    rw [← text, ← literal] at same
    cases p with
    | string body =>
      have inside : body <:+: t.lexeme := text ▸ ⟨['"'], ['"'], rfl⟩
      refine ⟨(Role.token.inj role).symm, by_contra fun plain => same ?_ ?_⟩
      · rw [text, Text.plainBreaksSame plain]
      · have value := Text.plainBreaksSame fun ending => plain (ending.trans inside)
        exact congrArg (fun body => some (Literal.string body)) value
    | unclosed body => contradiction
    | _ => exact (same (Piece.plainItself shape (by simp) (by simp)) rfl).elim
  · obtain rfl := List.mem_singleton.mp last
    exact absurd rfl changed

end Scan

example : Text.plainBreaks "a\r\n\r\r\n\r".toList = "a\n\r\n\r".toList := by decide

theorem Scanner.lineEndingsUnseen (source : Text) :
    ∃ s t, (fresh source).scanTokens = some s ∧ (fresh source.plainBreaks).scanTokens = some t ∧
      t.tokens = s.tokens.map Token.plainBreaks ∧ t.errors = s.errors.map LexicalError.plainBreaks ∧
      t.diagnostics = s.diagnostics ∧
      ∀ a ∈ s.tokens, a.plainBreaks ≠ a → a.kind = .string ∧ ['\r', '\n'] <:+: a.lexeme := by
  obtain ⟨s, answered, tokens, errors, diagnostics⟩ := scanAnswers source
  obtain ⟨t, answeredPlain, tokensPlain, errorsPlain, diagnosticsPlain⟩ := scanAnswers source.plainBreaks
  refine ⟨s, t, answered, answeredPlain, ?_, ?_, ?_, fun a member => ?_⟩
  · rw [tokensPlain, tokens, Scan.tokensPlain]
  · rw [errorsPlain, errors, Scan.errorsPlain]
  · rw [diagnosticsPlain, diagnostics, Scan.diagnosticsPlain]
  · rw [tokens] at member
    exact Scan.plainUnlessEnding member

end LoxLexer
