import LoxLexer.Proofs.Seam
import LoxLexer.Proofs.RoundTrip
/-! A string that is never closed. The source ends in it, so it is reported last and once, and all before it is read
as a source of its own. One more quotation mark makes a string of it and changes nothing before it. -/
namespace LoxLexer

def Diagnostic.isUnterminated (d : Diagnostic) : Bool := d.message == "Unterminated string.".toList

namespace Site

def Closed (s : Site) : Prop := ∀ body, s.piece ≠ .unclosed body

theorem unclosedLast {source : Text} {s : Site} {body : Text} (member : s ∈ ofText source)
    (left : s.piece = .unclosed body) : source = s.before ++ '"' :: body ∧ '"' ∉ body ∧
      Piece.Seam s.before ('"' :: body) := by
  obtain ⟨front, back, sites⟩ := List.append_of_mem member
  obtain ⟨after, text, stands, seam, _⟩ := Site.seam sites
  rw [left] at text stands seam
  obtain rfl : after = [] := stands.ends
  rw [List.append_nil] at text seam
  exact ⟨text, stands.wellFormed, seam⟩

theorem ofLast {u one : Text} {p : Piece} (seam : Piece.Seam u one) (shape : p.WellFormed)
    (exchanges : Piece.Exchanges one p.text) : ofText (u ++ p.text) = ofText u ++ [⟨u, p⟩] := by
  have sites := ofSeam seam ⟨shape, Piece.endsEmpty p⟩ (by rwa [List.append_nil])
  rwa [List.append_nil, Piece.cutEmpty] at sites

theorem closedBefore {u body : Text} (seam : Piece.Seam u ('"' :: body)) : ∀ s ∈ ofText u, s.Closed := by
  intro s member other left
  have longer : s ∈ ofText (u ++ '"' :: body) := by
    rw [ofFront seam]
    exact List.mem_append_left _ member
  obtain ⟨short, _⟩ := unclosedLast member left
  obtain ⟨long, _⟩ := unclosedLast longer left
  rw [← short] at long
  exact absurd long (by simp)

theorem errorClosed {s : Site} (closed : s.Closed) (one other : Text) : s.error? one = s.error? other := by
  obtain ⟨before, piece⟩ := s
  cases piece with
  | unclosed body => exact absurd rfl (closed body)
  | _ => rfl

end Site

namespace Scan

theorem errorsClosed {source : Text} (closed : ∀ s ∈ Site.ofText source, s.Closed) (whole : Text) :
    (Site.ofText source).filterMap (Site.error? whole) = (ofText source).errors := by
  rw [errorSites]
  exact List.filterMap_congr fun s member => Site.errorClosed (closed s member) whole source

theorem reportsClosed {source : Text} (closed : ∀ s ∈ Site.ofText source, s.Closed) :
    ∀ d ∈ (ofText source).diagnostics, d.isUnterminated = false := by
  intro d reported
  obtain ⟨e, made, rfl⟩ := List.mem_map.mp reported
  rw [errorSites] at made
  obtain ⟨⟨before, piece⟩, member, told⟩ := List.mem_filterMap.mp made
  cases piece with
  | unclosed body => exact absurd rfl (closed _ member body)
  | stray character =>
    obtain rfl : _ = e := Option.some.inj told
    rfl
  | _ => contradiction

theorem countClosed {source : Text} (closed : ∀ s ∈ Site.ofText source, s.Closed) :
    (ofText source).diagnostics.countP Diagnostic.isUnterminated = 0 :=
  List.countP_eq_zero.mpr fun d reported => by simp [reportsClosed closed d reported]

theorem lexemeNotEof {source : Text} : ∀ t ∈ (ofText source).lexemes, t.kind ≠ .eof := by
  intro t member last
  have spelt := lexemeSpelt member
  rw [last] at spelt
  cases spelt

end Scan

structure Endings (u body : Text) : Prop where
  openLexemes : (Scan.ofText (u ++ '"' :: body)).lexemes = (Scan.ofText u).lexemes
  openErrors : (Scan.ofText (u ++ '"' :: body)).errors =
    (Scan.ofText u).errors ++ [.unterminatedString (1 + (u ++ '"' :: body).count '\n') ('"' :: body)]
  closedLexemes : (Scan.ofText (u ++ '"' :: body ++ ['"'])).lexemes = (Scan.ofText u).lexemes ++
    [⟨.string, '"' :: body ++ ['"'], some (.string body), 1 + u.count '\n'⟩]
  closedErrors : (Scan.ofText (u ++ '"' :: body ++ ['"'])).errors = (Scan.ofText u).errors

theorem endings {u body : Text} (seam : Piece.Seam u ('"' :: body)) (inside : '"' ∉ body) : Endings u body := by
  have closed := Site.closedBefore seam
  have left : Site.ofText (u ++ '"' :: body) = Site.ofText u ++ [⟨u, .unclosed body⟩] :=
    Site.ofLast (p := .unclosed body) seam inside fun _ _ stands => stands
  have mended : Site.ofText (u ++ '"' :: body ++ ['"']) = Site.ofText u ++ [⟨u, .string body⟩] := by
    rw [List.append_assoc]
    exact Site.ofLast (p := .string body) seam inside (Piece.exchangesAlike rfl (by decide) _ _)
  constructor
  · rw [Scan.lexemeSites, left, List.filterMap_append, ← Scan.lexemeSites]
    exact List.append_nil _
  · rw [Scan.errorSites, left, List.filterMap_append, Scan.errorsClosed closed]
    rfl
  · rw [Scan.lexemeSites, mended, List.filterMap_append, ← Scan.lexemeSites]
    rfl
  · rw [Scan.errorSites, mended, List.filterMap_append, Scan.errorsClosed closed]
    exact List.append_nil _

namespace Endings

variable {u body : Text} (ends : Endings u body)
include ends

theorem openTokens : (Scan.ofText (u ++ '"' :: body)).tokens =
    (Scan.ofText u).lexemes ++ [Token.eof (1 + (u ++ '"' :: body).count '\n')] := by
  rw [Scan.tokens, ends.openLexemes]
  rfl

theorem openReports : (Scan.ofText (u ++ '"' :: body)).diagnostics = (Scan.ofText u).diagnostics ++
    [⟨1 + (u ++ '"' :: body).count '\n', "Unterminated string.".toList⟩] := by
  rw [Scan.diagnostics, ends.openErrors, List.map_append]
  rfl

theorem closedTokens : (Scan.ofText (u ++ '"' :: body ++ ['"'])).tokens = (Scan.ofText u).lexemes ++
    [⟨.string, '"' :: body ++ ['"'], some (.string body), 1 + u.count '\n'⟩,
      Token.eof (1 + (u ++ '"' :: body).count '\n')] := by
  have last : (u ++ '"' :: body ++ ['"']).count '\n' = (u ++ '"' :: body).count '\n' := by simp
  rw [Scan.tokens, ends.closedLexemes, Scan.finishLine, Text.lineFeeds, last, List.append_assoc]
  rfl

theorem closedReports : (Scan.ofText (u ++ '"' :: body ++ ['"'])).diagnostics = (Scan.ofText u).diagnostics := by
  rw [Scan.diagnostics, ends.closedErrors]
  rfl

theorem reportedOnce (closed : ∀ s ∈ Site.ofText u, s.Closed) :
    (Scan.ofText (u ++ '"' :: body)).diagnostics.countP Diagnostic.isUnterminated = 1 := by
  rw [ends.openReports, List.countP_append, Scan.countClosed closed]
  rfl

end Endings

theorem Scanner.unclosedStringIsLast (source : Text) :
    ∃ s, (fresh source).scanTokens = some s ∧ s.diagnostics.countP Diagnostic.isUnterminated ≤ 1 ∧
      ((∀ d ∈ s.diagnostics, d.isUnterminated = false) ∨
        ∃ u r body lexemes t v, source = u ++ r ∧ r = '"' :: body ∧ '"' ∉ body ∧
          (fresh u).scanTokens = some t ∧ (fresh (source ++ ['"'])).scanTokens = some v ∧
          (∀ d ∈ t.diagnostics, d.isUnterminated = false) ∧
          s.diagnostics = t.diagnostics ++ [⟨1 + source.count '\n', "Unterminated string.".toList⟩] ∧
          s.errors = t.errors ++ [.unterminatedString (1 + source.count '\n') r] ∧
          v.diagnostics = t.diagnostics ∧ v.errors = t.errors ∧
          (∀ a ∈ lexemes, a.kind ≠ .eof) ∧
          t.tokens = lexemes ++ [Token.eof (1 + u.count '\n')] ∧
          s.tokens = lexemes ++ [Token.eof (1 + source.count '\n')] ∧
          v.tokens = lexemes ++ [⟨.string, r ++ ['"'], some (.string body), 1 + u.count '\n'⟩,
            Token.eof (1 + source.count '\n')]) := by
  obtain ⟨s, answered, tokens, errors, diagnostics⟩ := scanAnswers source
  by_cases closed : ∀ site ∈ Site.ofText source, site.Closed
  · refine ⟨s, answered, ?_, .inl ?_⟩
    · rw [diagnostics, Scan.countClosed closed]
      exact Nat.zero_le 1
    · rw [diagnostics]
      exact Scan.reportsClosed closed
  · simp only [Site.Closed, ne_eq, not_forall, not_not] at closed
    obtain ⟨⟨u, piece⟩, member, body, left⟩ := closed
    obtain ⟨rfl, inside, seam⟩ := Site.unclosedLast member left
    have closedFront := Site.closedBefore seam
    have ends := endings seam inside
    obtain ⟨t, answeredFront, tokensFront, errorsFront, diagnosticsFront⟩ := scanAnswers u
    obtain ⟨v, answeredClosed, tokensClosed, errorsClosed, diagnosticsClosed⟩ :=
      scanAnswers (u ++ '"' :: body ++ ['"'])
    refine ⟨s, answered, ?_, .inr ⟨u, '"' :: body, body, (Scan.ofText u).lexemes, t, v, rfl, rfl, inside,
      answeredFront, answeredClosed, ?_, ?_, ?_, ?_, ?_, Scan.lexemeNotEof, tokensFront, ?_, ?_⟩⟩
    · rw [diagnostics, ends.reportedOnce closedFront]
    · rw [diagnosticsFront]
      exact Scan.reportsClosed closedFront
    · rw [diagnostics, diagnosticsFront, ends.openReports]
    · rw [errors, errorsFront, ends.openErrors]
    · rw [diagnosticsClosed, diagnosticsFront, ends.closedReports]
    · rw [errorsClosed, errorsFront, ends.closedErrors]
    · rw [tokens, ends.openTokens]
    · rw [tokensClosed, ends.closedTokens]

end LoxLexer
