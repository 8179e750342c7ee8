import LoxLexer.Proofs.Cursor
/-! Line numbers. A token and a stray character are on the line that the line feeds before them lead
to, an unclosed string and the end of a source on its last line; so lines never go back. -/
namespace LoxLexer

structure Site where
  before : Text
  piece : Piece
  deriving DecidableEq, Repr

namespace Site

def token? (s : Site) : Option Token := s.piece.token? (1 + s.before.count '\n')

def error? (source : Text) (s : Site) : Option LexicalError :=
  match s.piece with
  | .stray character => some (.unexpectedCharacter (1 + s.before.count '\n') character)
  | .unclosed body => some (.unterminatedString (1 + source.count '\n') ('"' :: body))
  | _ => none

def finding? (source : Text) (s : Site) : Option Finding :=
  (s.token?.map Finding.token).or ((s.error? source).map Finding.error)

def behind (before : Text) : List Piece → List Site
  | [] => []
  | piece :: rest => ⟨before, piece⟩ :: behind (before ++ piece.text) rest

def ofText (source : Text) : List Site := behind [] (Piece.cut source)

theorem findingToken (source : Text) (s : Site) : (s.finding? source).bind Finding.token? = s.token? := by
  obtain ⟨before, piece⟩ := s
  cases piece <;> rfl

theorem findingError (source : Text) (s : Site) : (s.finding? source).bind Finding.error? = s.error? source := by
  obtain ⟨before, piece⟩ := s
  cases piece <;> rfl

theorem behindMember {before : Text} {pieces : List Piece} {s : Site} (member : s ∈ behind before pieces) :
    ∃ front back, pieces = front ++ s.piece :: back ∧ s.before = before ++ Piece.joined front := by
  induction pieces generalizing before with
  | nil => contradiction
  | cons piece rest ih =>
    rcases List.mem_cons.mp member with rfl | later
    · exact ⟨[], rest, rfl, (List.append_nil before).symm⟩
    · obtain ⟨front, back, same, text⟩ := ih later
      refine ⟨piece :: front, back, by rw [same]; rfl, ?_⟩
      rw [text, List.append_assoc]
      rfl

end Site

namespace Piece

theorem cutSides {source : Text} {front back : List Piece} (cuts : cut source = front ++ back) :
    source = joined front ++ joined back ∧ cut (joined front) = front ∧ cut (joined back) = back := by
  induction source using pieceInduction generalizing front with
  | nothing =>
    rw [cutEmpty] at cuts
    obtain ⟨rfl, rfl⟩ := List.append_eq_nil_iff.mp cuts.symm
    exact ⟨rfl, cutEmpty, cutEmpty⟩
  | piece p rest stands ih =>
    cases front with
    | nil =>
      have whole : joined back = p.text ++ rest := by rw [← joinedCut (p.text ++ rest), cuts]; rfl
      exact ⟨whole.symm, cutEmpty, by rw [whole, cuts]; rfl⟩
    | cons q front =>
      rw [cutStands stands] at cuts
      obtain ⟨rfl, more⟩ := List.cons.inj cuts
      obtain ⟨text, left, right⟩ := ih more
      have alone : p.Stands (joined front) := standsPrefix (text ▸ stands)
      refine ⟨by rw [text, ← List.append_assoc]; rfl, ?_, right⟩
      calc cut (joined (p :: front)) = p :: cut (joined front) := cutStands alone
        _ = p :: front := by rw [left]

end Piece

theorem Site.cutAt {source : Text} {s : Site} (member : s ∈ Site.ofText source) :
    ∃ after, source = s.before ++ s.piece.text ++ after ∧
      Piece.cut source = Piece.cut s.before ++ s.piece :: Piece.cut after := by
  obtain ⟨front, back, cuts, text⟩ := Site.behindMember member
  rw [List.nil_append] at text
  obtain ⟨whole, left, right⟩ := Piece.cutSides cuts
  have behind : Piece.cut source = (front ++ [s.piece]) ++ back := by simpa using cuts
  have after := (Piece.cutSides behind).2.2
  refine ⟨Piece.joined back, ?_, ?_⟩
  · rw [text, List.append_assoc]
    exact whole
  · rw [text, left, after, cuts]

namespace Position

/- Only the last piece can be an unclosed string, so the line behind it is the last line. -/
theorem siteFinding {p : Position} {before rest : Text} {piece : Piece} (line : p.line = 1 + before.count '\n')
    (stands : piece.Stands rest) :
    Placed.finding? ⟨piece, p⟩ = Site.finding? (before ++ (piece.text ++ rest)) ⟨before, piece⟩ := by
  cases piece with
  | unclosed body =>
    have last : rest = [] := stands.ends
    subst last
    simp [Placed.finding?, Site.finding?, Site.token?, Site.error?, Piece.token?, Piece.kind?, after, line,
      Text.lineFeeds, Piece.text, Nat.add_assoc]
  | _ => simp [Placed.finding?, Site.finding?, Site.token?, Site.error?, Piece.token?, Piece.kind?, line]

theorem siteFindings (source before : Text) (p : Position) (line : p.line = 1 + before.count '\n') :
    p.findings (Piece.cut source) =
      (Site.behind before (Piece.cut source)).filterMap (Site.finding? (before ++ source)) := by
  induction source using Piece.pieceInduction generalizing before p with
  | nothing => rw [Piece.cutEmpty]; rfl
  | piece piece rest stands ih =>
    have next : (p.after piece.text).line = 1 + (before ++ piece.text).count '\n' := by
      simp only [after, line, Text.lineFeeds, List.count_append]
      omega
    rw [Piece.cutStands stands, findingsCons, siteFinding line stands, ih _ _ next, List.append_assoc,
      Site.behind, List.filterMap_cons]
    cases Site.finding? (before ++ (piece.text ++ rest)) ⟨before, piece⟩ <;> rfl

theorem findingsRise (p : Position) (pieces : List Piece) :
    (p.findings pieces).Pairwise fun a b => a.line ≤ b.line := by
  induction pieces generalizing p with
  | nil => exact List.Pairwise.nil
  | cons piece rest ih =>
    rw [findingsCons]
    refine List.pairwise_append.mpr ⟨?_, ih _, fun a here b later => ?_⟩
    · cases Placed.finding? ⟨piece, p⟩ <;> simp
    · have low := (findingLine (Option.mem_toList.mp here)).2
      exact Nat.le_trans low (findingsLine _ rest b later).1

end Position

theorem viewRises {β : Type} {view : Finding → Option β} {line : β → Nat}
    (keeps : ∀ {f b}, view f = some b → line b = f.line) {findings : List Finding}
    (rise : findings.Pairwise fun a b => a.line ≤ b.line) :
    (findings.filterMap view).Pairwise fun a b => line a ≤ line b := by
  refine List.Pairwise.filterMap view (fun a b under c seen d also => ?_) rise
  rw [keeps seen, keeps also]
  exact under

namespace Scan

theorem findingsSites (source : Text) :
    (ofText source).findings = (Site.ofText source).filterMap (Site.finding? source) :=
  Position.siteFindings source [] Position.first rfl

theorem viewSites {β : Type} {view : Finding → Option β} {seen : Site → Option β} {source : Text}
    (blind : ∀ s : Site, (s.finding? source).bind view = seen s) :
    (ofText source).findings.filterMap view = (Site.ofText source).filterMap seen := by
  rw [findingsSites, List.filterMap_filterMap]
  exact List.filterMap_congr fun s _ => blind s

theorem tokensRise (source : Text) : (ofText source).tokens.Pairwise fun a b => a.line ≤ b.line := by
  have rise := viewRises tokenLine (Position.findingsRise Position.first (Piece.cut source))
  refine List.pairwise_append.mpr ⟨rise, by simp, fun t member last same => ?_⟩
  obtain ⟨f, found, seen⟩ := List.mem_filterMap.mp member
  obtain rfl := List.mem_singleton.mp same
  have high := (Position.findingsLine Position.first (Piece.cut source) f found).2
  rw [Piece.joinedCut] at high
  rw [tokenLine seen]
  exact high

theorem reportsRise (source : Text) : (ofText source).diagnostics.Pairwise fun a b => a.line ≤ b.line := by
  rw [diagnosticsOf]
  exact viewRises reportLine (Position.findingsRise _ _)

theorem lexemeSites (source : Text) : (ofText source).lexemes = (Site.ofText source).filterMap Site.token? :=
  viewSites (Site.findingToken source)

theorem tokenSites (source : Text) : (ofText source).tokens =
    (Site.ofText source).filterMap Site.token? ++ [Token.eof (1 + source.count '\n')] := by
  rw [tokens, lexemeSites]
  rfl

theorem errorSites (source : Text) : (ofText source).errors = (Site.ofText source).filterMap (Site.error? source) :=
  viewSites (Site.findingError source)

end Scan

theorem Scanner.linesAreExact (source : Text) :
    (∀ s ∈ Site.ofText source, ∃ after, source = s.before ++ s.piece.text ++ after ∧
      Piece.cut source = Piece.cut s.before ++ s.piece :: Piece.cut after) ∧
    ∃ s, (fresh source).scanTokens = some s ∧
      s.tokens = (Site.ofText source).filterMap Site.token? ++ [Token.eof (1 + source.count '\n')] ∧
      s.errors = (Site.ofText source).filterMap (Site.error? source) ∧
      s.diagnostics = s.errors.map LexicalError.diagnostic ∧
      (s.tokens.Pairwise fun a b => a.line ≤ b.line) ∧
      s.diagnostics.Pairwise fun a b => a.line ≤ b.line := by
  obtain ⟨s, answered, tokens, errors, diagnostics⟩ := scanAnswers source
  refine ⟨fun s member => Site.cutAt member, s, answered, ?_, ?_, ?_, ?_, ?_⟩
  · rw [tokens, Scan.tokenSites]
  · rw [errors, Scan.errorSites]
  · rw [diagnostics, errors]
    rfl
  · rw [tokens]
    exact Scan.tokensRise source
  · rw [diagnostics]
    exact Scan.reportsRise source

end LoxLexer
