import LoxLexer.Proofs.Lines
/-! A source that goes on. No piece asks for more than two characters behind it, so what has two behind it is
read alike however the source goes on; and a character that is a lexeme's nowhere stays one to the very end. -/
namespace LoxLexer

namespace Piece

/- Only the end, and a point that a digit may follow, leave open what stands before them. -/
theorem standsLonger {p : Piece} {rest : Text} (stands : p.Stands rest) (some : rest ≠ []) (noPoint : rest ≠ ['.'])
    (more : Text) : p.Stands (rest ++ more) := by
  obtain ⟨shape, ends⟩ := stands
  refine ⟨shape, ?_⟩
  cases rest with
  | nil => exact absurd rfl some
  | cons c rest =>
    have longer {keep : Char → Bool} (halts : Halts keep (c :: rest)) : Halts keep (c :: rest ++ more) :=
      haltsCons.mpr (haltsCons.mp halts)
    cases p with
    | mark m => exact ⟨fun grows => longer (ends.1 grows), fun slash => longer (ends.2 slash)⟩
    | word letters => exact longer ends
    | comment body => exact longer ends
    | unclosed body => exact absurd ends (List.cons_ne_nil c rest)
    | number n =>
      refine ⟨longer ends.1, fun whole d behind same => ?_⟩
      obtain ⟨rfl, next⟩ := List.cons.inj same
      cases rest with
      | nil => exact absurd rfl noPoint
      | cons e rest => exact ends.2 whole d rest (by rw [(List.cons.inj next).1])
    | _ => trivial

theorem cutBound (source : Text) : (cut source).length ≤ source.length := by
  induction source using pieceInduction with
  | nothing => simp [cutEmpty]
  | piece p rest stands ih =>
    obtain ⟨c, cs, text⟩ := textNonempty stands.wellFormed
    rw [cutStands stands]
    simp only [text, List.length_append, List.length_cons]
    omega

end Piece

namespace Site

def settled (source : Text) (s : Site) : Bool := s.before.length + s.piece.text.length + 2 ≤ source.length

theorem behindLength (before : Text) (pieces : List Piece) : (behind before pieces).length = pieces.length := by
  induction pieces generalizing before with
  | nil => rfl
  | cons piece rest ih => simp [behind, ih]

theorem laterUnsettled {source before : Text} {pieces : List Piece} (short : source.length < before.length + 2) :
    (behind before pieces).filter (settled source) = [] := by
  refine List.filter_eq_nil_iff.mpr fun s member => ?_
  obtain ⟨front, _, _, further⟩ := behindMember member
  simp only [settled, further, List.length_append, decide_eq_true_eq]
  omega

theorem settledFirst (source more before : Text) : ∃ late back, late.length ≤ 2 ∧
    behind before (Piece.cut source) =
      (behind before (Piece.cut source)).filter (settled (before ++ source)) ++ late ∧
    behind before (Piece.cut (source ++ more)) =
      (behind before (Piece.cut source)).filter (settled (before ++ source)) ++ back := by
  induction source using Piece.pieceInduction generalizing before with
  | nothing =>
    rw [Piece.cutEmpty]
    exact ⟨[], _, Nat.zero_le 2, rfl, rfl⟩
  | piece p rest stands ih =>
    have whole : (before ++ (p.text ++ rest)).length = before.length + p.text.length + rest.length := by
      simp only [List.length_append, Nat.add_assoc]
    rw [Piece.cutStands stands, behind]
    by_cases long : 2 ≤ rest.length
    · have here : settled (before ++ (p.text ++ rest)) ⟨before, p⟩ = true := by
        simp only [settled, whole, decide_eq_true_eq]
        omega
      have some : rest ≠ [] := by rintro rfl; simp at long
      have noPoint : rest ≠ ['.'] := by rintro rfl; simp at long
      obtain ⟨late, back, few, same, goesOn⟩ := ih (before ++ p.text)
      rw [List.append_assoc] at same goesOn
      refine ⟨late, back, few, ?_, ?_⟩
      · rw [List.filter_cons_of_pos here, List.cons_append, ← same]
      · rw [List.filter_cons_of_pos here, List.cons_append, ← goesOn, List.append_assoc,
          Piece.cutStands (Piece.standsLonger stands some noPoint more)]
        rfl
    · have here : ¬ settled (before ++ (p.text ++ rest)) ⟨before, p⟩ = true := by
        simp only [settled, whole, decide_eq_true_eq]
        omega
      have none : (⟨before, p⟩ :: behind (before ++ p.text) (Piece.cut rest)).filter
          (settled (before ++ (p.text ++ rest))) = [] := by
        rw [List.filter_cons_of_neg here]
        refine laterUnsettled ?_
        rw [whole, List.length_append]
        omega
      have few := Piece.cutBound rest
      refine ⟨_, _, ?_, by rw [none]; rfl, by rw [none]; rfl⟩
      rw [List.length_cons, behindLength]
      omega

end Site

def Diagnostic.isUnexpected (d : Diagnostic) : Bool := d.message == "Unexpected character.".toList

namespace Position

/- What is read on is no stray character, and none is behind it yet; so no stray is lost where a piece grows. -/
theorem straysContinue (source more : Text) (p : Position) :
    ((p.findings (Piece.cut source)).filterMap Finding.report?).filter Diagnostic.isUnexpected <+:
      (p.findings (Piece.cut (source ++ more))).filterMap Finding.report? := by
  induction source using Piece.pieceInduction generalizing p with
  | nothing =>
    rw [Piece.cutEmpty]
    exact List.nil_prefix
  | piece piece rest stands ih =>
    rw [Piece.cutStands stands, findingsCons, List.filterMap_append, List.filter_append, List.append_assoc]
    by_cases goesOn : piece.Stands (rest ++ more)
    · have behind := ih (p.after piece.text)
      rw [Piece.cutStands goesOn, findingsCons, List.filterMap_append]
      cases piece with
      | unclosed body =>
        obtain rfl : rest = [] := stands.ends
        rw [Piece.cutEmpty]
        exact List.nil_prefix
      | stray c => exact List.cons_prefix_cons.mpr ⟨rfl, behind⟩
      | _ => exact behind
    · have open_ : rest = [] ∨ rest = ['.'] := by
        by_contra decided
        obtain ⟨some, noPoint⟩ := not_or.mp decided
        exact goesOn (Piece.standsLonger stands some noPoint more)
      have silent : (((p.after piece.text).findings (Piece.cut rest)).filterMap Finding.report?) = [] := by
        rcases open_ with rfl | rfl
        · rw [Piece.cutEmpty]
          rfl
        · have point : Piece.cut ['.'] = [.mark .dot] := Piece.cutAlone (p := .mark .dot) trivial
          rw [point]
          rfl
      rw [silent]
      cases piece with
      | stray c => exact absurd ⟨stands.wellFormed, trivial⟩ goesOn
      | _ => exact List.nil_prefix

end Position

theorem Scanner.continuationKeeps (source more : Text) :
    ∃ s t kept late, (fresh source).scanTokens = some s ∧ (fresh (source ++ more)).scanTokens = some t ∧
      (∀ site ∈ Site.ofText source, ∃ after, source = site.before ++ site.piece.text ++ after) ∧
      s.tokens.dropLast = (Site.ofText source).filterMap Site.token? ∧
      kept = ((Site.ofText source).filter (Site.settled source)).filterMap Site.token? ∧
      s.tokens = kept ++ late ++ [Token.eof (1 + source.count '\n')] ∧ late.length ≤ 2 ∧
      kept <+: t.tokens.dropLast ∧
      s.diagnostics.filter Diagnostic.isUnexpected <+: t.diagnostics := by
  obtain ⟨s, answered, tokens, _, diagnostics⟩ := scanAnswers source
  obtain ⟨t, answeredToo, tokensToo, _, diagnosticsToo⟩ := scanAnswers (source ++ more)
  obtain ⟨late, back, few, same, goesOn⟩ := Site.settledFirst source more []
  rw [List.nil_append] at same goesOn
  refine ⟨s, t, _, late.filterMap Site.token?, answered, answeredToo, fun site member => ?_, ?_, rfl, ?_, ?_, ?_, ?_⟩
  · obtain ⟨after, text, _⟩ := Site.cutAt member
    exact ⟨after, text⟩
  · rw [tokens, Scan.tokenSites, List.dropLast_concat]
  · rw [tokens, Scan.tokenSites, ← List.filterMap_append]
    exact congrArg (fun sites => sites.filterMap Site.token? ++ [Token.eof (1 + source.count '\n')]) same
  · exact (List.length_filterMap_le _ _).trans few
  · rw [tokensToo, Scan.tokenSites, List.dropLast_concat, Site.ofText, Site.ofText, goesOn, List.filterMap_append]
    exact List.prefix_append _ _
  · rw [diagnostics, diagnosticsToo, Scan.diagnosticsOf, Scan.diagnosticsOf]
    exact Position.straysContinue source more Position.first

example : (Scan.ofText "123.".toList).lexemes.map Token.lexeme = ["123".toList, ['.']] ∧
    (Scan.ofText ("123.".toList ++ ['5'])).lexemes.map Token.lexeme = ["123.5".toList] := by
  decide +kernel

end LoxLexer
