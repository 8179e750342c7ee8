import LoxLexer.Proofs.Cursor
/-! A line feed outside a string ends whatever is being read. What stands before it is read as if the
source ended there, and what stands behind it as a source of its own, some lines further down. -/
namespace LoxLexer

def Terminated (source : Text) : Prop :=
  ∀ d ∈ (Scan.ofText source).diagnostics, d.message ≠ "Unterminated string.".toList

namespace Piece

theorem unclosedAbsent {source : Text} (terminated : Terminated source) (body : Text) :
    unclosed body ∉ cut source := by
  intro member
  have complaint : "Unterminated string.".toList ∈ (cut source).filterMap complaint? :=
    List.mem_filterMap.mpr ⟨_, member, rfl⟩
  rw [← Scan.complaints] at complaint
  obtain ⟨d, reported, message⟩ := List.mem_map.mp complaint
  exact terminated d reported message

theorem endedByFeed {p : Piece} (closed : ∀ body, p ≠ unclosed body) : p.EndedBy '\n' := by
  cases p with
  | unclosed body => exact absurd rfl (closed body)
  | comment body => rfl
  | _ => exact .inr rfl

theorem cutFeed (rest : Text) : cut ('\n' :: rest) = lineFeed :: cut rest := by
  rw [cutStep]
  rfl

theorem closedCons {p : Piece} {rest : List Piece} (closed : ∀ body, unclosed body ∉ p :: rest) :
    (∀ body, p ≠ unclosed body) ∧ ∀ body, unclosed body ∉ rest := by
  constructor
  · rintro body rfl
    exact closed body List.mem_cons_self
  · intro body member
    exact closed body (List.mem_cons_of_mem p member)

theorem cutBreak (a b : Text) (closed : ∀ body, unclosed body ∉ cut a) :
    cut (a ++ '\n' :: b) = cut a ++ lineFeed :: cut b := by
  induction a using pieceInduction with
  | nothing => rw [List.nil_append, cutEmpty, cutFeed, List.nil_append]
  | piece p rest stands ih =>
    rw [cutStands stands] at closed ⊢
    obtain ⟨whole, more⟩ := closedCons closed
    rw [List.append_assoc, cutStands (standsBefore stands (endedByFeed whole)), ih more, List.cons_append]

theorem standsReturn {p : Piece} {rest : Text} (stands : p.Stands rest) (closed : ∀ body, p ≠ unclosed body)
    (inside : ∀ body, p = comment body → rest ≠ []) : p.Stands (rest ++ ['\r']) := by
  cases p with
  | unclosed body => exact absurd rfl (closed body)
  | comment body =>
    cases rest with
    | nil => exact absurd rfl (inside body rfl)
    | cons c more =>
      have ends : Halts (· != '\n') (c :: more) := stands.ends
      have stop := haltsCons.mp ends
      have further : Halts (· != '\n') (c :: more ++ ['\r']) := haltsCons.mpr stop
      exact ⟨stands.wellFormed, further⟩
  | _ => exact standsBefore stands (.inl rfl)

end Piece

namespace Position

theorem findingsBreak (p : Position) (a b : Text) (closed : ∀ body, Piece.unclosed body ∉ Piece.cut a) :
    p.findings (Piece.cut (a ++ '\n' :: b)) = p.findings (Piece.cut a) ++
      (p.findings (Piece.cut b)).map (Finding.down (1 + a.lineFeeds)) := by
  have below : ((p.after a).after ['\n']).line = p.line + (1 + a.lineFeeds) := by
    simp [after, Text.lineFeeds]
    omega
  rw [Piece.cutBreak a b closed, findingsAppend, findingsCons, Piece.joinedCut]
  congr 1
  exact findingsDown p _ _ (Piece.cut b) below

theorem findingsReturn (p : Position) (a : Text) (closed : ∀ body, Piece.unclosed body ∉ Piece.cut a) :
    p.findings (Piece.cut (a ++ ['\r'])) = p.findings (Piece.cut a) := by
  induction a using Piece.pieceInduction generalizing p with
  | nothing =>
    have blank : (Piece.blank '\r').Stands [] := ⟨rfl, trivial⟩
    have cuts := Piece.cutStands blank
    rw [Piece.cutEmpty] at cuts ⊢
    rw [show [] ++ ['\r'] = (Piece.blank '\r').text ++ [] from rfl, cuts]
    rfl
  | piece piece rest stands ih =>
    rw [Piece.cutStands stands] at closed ⊢
    obtain ⟨whole, more⟩ := Piece.closedCons closed
    rw [List.append_assoc]
    by_cases last : (∃ body, piece = .comment body) ∧ rest = []
    · obtain ⟨⟨body, rfl⟩, rfl⟩ := last
      have longer : (Piece.comment (body ++ ['\r'])).Stands [] :=
        ⟨by simpa [Piece.WellFormed] using stands.wellFormed, Piece.endsEmpty _⟩
      have text : (Piece.comment body).text ++ ([] ++ ['\r']) = (Piece.comment (body ++ ['\r'])).text ++ [] := by
        simp [Piece.text]
      rw [text, Piece.cutStands longer, Piece.cutEmpty]
      rfl
    · rw [Piece.cutStands (Piece.standsReturn stands whole fun body same empty => last ⟨⟨body, same⟩, empty⟩),
        findingsCons, findingsCons, ih _ more]

end Position

namespace Scan

theorem findingsBreak {a : Text} (terminated : Terminated a) (b : Text) :
    (ofText (a ++ '\n' :: b)).findings =
      (ofText a).findings ++ (ofText b).findings.map (Finding.down (1 + a.lineFeeds)) :=
  Position.findingsBreak Position.first a b (Piece.unclosedAbsent terminated)

theorem viewBreak {β : Type} {view : Finding → Option β} {move : β → β} {a : Text}
    (moves : ∀ f, view (f.down (1 + a.lineFeeds)) = (view f).map move) (terminated : Terminated a)
    (b : Text) : (ofText (a ++ '\n' :: b)).findings.filterMap view =
      (ofText a).findings.filterMap view ++ ((ofText b).findings.filterMap view).map move := by
  rw [findingsBreak terminated, List.filterMap_append, viewChange moves]

theorem eofBreak (a b : Text) :
    Token.eof (ofText (a ++ '\n' :: b)).finish.line =
      (Token.eof (ofText b).finish.line).down (1 + a.lineFeeds) := by
  simp only [finishLine, Token.eof, Token.down, Text.lineFeeds, List.count_append, List.count_cons_self,
    Token.mk.injEq, true_and]
  omega

theorem tokensBreak {a : Text} (terminated : Terminated a) (b : Text) : (ofText (a ++ '\n' :: b)).tokens =
    (ofText a).tokens.dropLast ++ (ofText b).tokens.map (Token.down (1 + a.lineFeeds)) := by
  have lexemes : (ofText (a ++ '\n' :: b)).lexemes =
      (ofText a).lexemes ++ (ofText b).lexemes.map (Token.down (1 + a.lineFeeds)) :=
    viewBreak (tokenDown _) terminated b
  simp only [tokens, lexemes, eofBreak, List.dropLast_concat, List.map_append, List.map_cons,
    List.map_nil, List.append_assoc]

end Scan

theorem Scanner.scanSplitsAtLineFeed (a b : Text) :
    ∃ s t u, (fresh a).scanTokens = some s ∧ (fresh b).scanTokens = some t ∧
      (fresh (a ++ '\n' :: b)).scanTokens = some u ∧
      ((∀ d ∈ s.diagnostics, d.message ≠ "Unterminated string.".toList) →
        u.tokens = s.tokens.dropLast ++ t.tokens.map (Token.down (1 + a.lineFeeds)) ∧
        u.errors = s.errors ++ t.errors.map (LexicalError.down (1 + a.lineFeeds)) ∧
        u.diagnostics = s.diagnostics ++ t.diagnostics.map (Diagnostic.down (1 + a.lineFeeds))) := by
  obtain ⟨s, answered, tokens, errors, diagnostics⟩ := scanAnswers a
  obtain ⟨t, answeredBelow, tokensBelow, errorsBelow, diagnosticsBelow⟩ := scanAnswers b
  obtain ⟨u, answeredWhole, tokensWhole, errorsWhole, diagnosticsWhole⟩ := scanAnswers (a ++ '\n' :: b)
  refine ⟨s, t, u, answered, answeredBelow, answeredWhole, fun ended => ?_⟩
  have terminated : Terminated a := by rwa [diagnostics] at ended
  refine ⟨?_, ?_, ?_⟩
  · rw [tokensWhole, tokens, tokensBelow, Scan.tokensBreak terminated]
  · rw [errorsWhole, errors, errorsBelow]
    exact Scan.viewBreak (errorDown _) terminated b
  · rw [diagnosticsWhole, diagnostics, diagnosticsBelow]
    simp only [Scan.diagnosticsOf]
    exact Scan.viewBreak (reportDown _) terminated b

theorem Scanner.trailingPointSplits :
    ∃ s t u, (fresh "@\n1.".toList).scanTokens = some s ∧ (fresh "5\"\n\"#".toList).scanTokens = some t ∧
      (fresh ("@\n1.".toList ++ '\n' :: "5\"\n\"#".toList)).scanTokens = some u ∧
      (∀ d ∈ s.diagnostics, d.message ≠ "Unterminated string.".toList) ∧
      u.tokens = s.tokens.dropLast ++ t.tokens.map (Token.down 2) := by
  obtain ⟨s, t, u, answered, below, whole, splits⟩ := scanSplitsAtLineFeed "@\n1.".toList "5\"\n\"#".toList
  obtain ⟨_, _, told, _⟩ := answerExact answered
  have terminated : ∀ d ∈ s.diagnostics, d.message ≠ "Unterminated string.".toList := by
    rw [told]
    decide +kernel
  exact ⟨s, t, u, answered, below, whole, terminated, (splits terminated).1⟩

end LoxLexer
