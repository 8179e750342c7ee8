import LoxLexer.Proofs.Modes
import LoxLexer.Proofs.Seam
import LoxLexer.Proofs.Continuation
import Mathlib.Data.List.Forall2
/-! Comments and stray characters are inert. With a space in place of each of their characters a source has the
same tokens on the same lines, and of its errors only the strays are gone. The places can be found without lexemes,
by the three modes alone. -/
namespace LoxLexer

def Piece.isInert : Piece → Bool
  | comment _ | stray _ => true
  | _ => false

def Site.covers (place : Nat) (s : Site) : Bool :=
  s.before.length ≤ place && place < s.before.length + s.piece.text.length

def Site.anyInert (sites : List Site) (place : Nat) : Bool := sites.any fun s => s.piece.isInert && s.covers place

def Text.blanked (source : Text) : Text :=
  source.mapIdx fun place c => if Site.anyInert (Site.ofText source) place then ' ' else c

namespace Mode

def left : Mode → Char → Char
  | code, c => if isKnown c then c else ' '
  | string, c => c
  | comment, c => if c = '\n' then c else ' '

def blanked : Mode → Text → Text
  | _, [] => []
  | code, '/' :: '/' :: rest => ' ' :: ' ' :: blanked comment rest
  | mode, c :: rest => mode.left c :: blanked (mode.after c) rest

end Mode

namespace Piece

def leftText (p : Piece) : Text := if p.isInert then p.text.map fun _ => ' ' else p.text

def leftPieces (p : Piece) : List Piece := if p.isInert then p.text.map fun _ => blank ' ' else [p]

end Piece

namespace Site

theorem anyBefore {before : Text} {pieces : List Piece} {place : Nat} (front : place < before.length) :
    anyInert (behind before pieces) place = false := by
  refine List.any_eq_false.mpr fun s member => ?_
  obtain ⟨_, _, _, further⟩ := behindMember member
  simp only [covers, further, List.length_append, Bool.and_eq_true, decide_eq_true_eq, not_and, not_lt]
  omega

theorem anyHere {before : Text} {p : Piece} {pieces : List Piece} {place : Nat} (inside : place < p.text.length) :
    anyInert (behind before (p :: pieces)) (place + before.length) = p.isInert := by
  have later : anyInert (behind (before ++ p.text) pieces) (place + before.length) = false :=
    anyBefore (by rw [List.length_append]; omega)
  have here : covers (place + before.length) ⟨before, p⟩ = true := by simp [covers]; omega
  simp only [anyInert] at later ⊢
  rw [behind, List.any_cons, later, here, Bool.and_true, Bool.or_false]

theorem anyBehind {before : Text} {p : Piece} {pieces : List Piece} (place : Nat) :
    anyInert (behind before (p :: pieces)) (place + p.text.length + before.length) =
      anyInert (behind (before ++ p.text) pieces) (place + (before ++ p.text).length) := by
  have passed : covers (place + p.text.length + before.length) ⟨before, p⟩ = false := by simp [covers]; omega
  have same : place + p.text.length + before.length = place + (before ++ p.text).length := by
    rw [List.length_append]
    omega
  rw [anyInert, behind, List.any_cons, passed, Bool.and_false, Bool.false_or, same]
  rfl

theorem blankedHere (before : Text) (p : Piece) (pieces : List Piece) :
    p.text.mapIdx (fun place c => if anyInert (behind before (p :: pieces)) (place + before.length) then ' ' else c) =
      p.leftText := by
  refine List.mapIdx_eq_iff.mpr fun place => ?_
  by_cases inside : place < p.text.length
  · rw [anyHere inside, Piece.leftText]
    cases p.isInert with
    | true => exact List.getElem?_map
    | false => exact (congrFun Option.map_id _).symm
  · have out : p.text[place]? = none := List.getElem?_eq_none (not_lt.mp inside)
    rw [out, Piece.leftText]
    split
    · rw [List.getElem?_map, out]
      rfl
    · exact out

theorem blankedBehind (before : Text) (pieces : List Piece) :
    (Piece.joined pieces).mapIdx (fun place c =>
      if anyInert (behind before pieces) (place + before.length) then ' ' else c) = pieces.flatMap Piece.leftText := by
  induction pieces generalizing before with
  | nil => rfl
  | cons p rest ih =>
    have joined : Piece.joined (p :: rest) = p.text ++ Piece.joined rest := rfl
    rw [joined, List.mapIdx_append, List.flatMap_cons, blankedHere, ← ih (before ++ p.text)]
    simp only [anyBehind]

end Site

theorem blankedPieces (source : Text) : source.blanked = (Piece.cut source).flatMap Piece.leftText := by
  have whole := Site.blankedBehind [] (Piece.cut source)
  rwa [Piece.joinedCut] at whole

def Paler (one other : Text) : Prop := List.Forall₂ (fun c d => d = c ∨ d = ' ') one other

theorem haltsPaler {keep : Char → Bool} {one other : Text} (space : keep ' ' = false) (paler : Paler one other)
    (halts : Halts keep one) : Halts keep other := by
  cases paler with
  | nil => exact haltsEmpty keep
  | cons same _ =>
    rcases same with rfl | rfl
    · exact haltsCons.mpr (haltsCons.mp halts)
    · exact haltsCons.mpr space

namespace Piece

theorem palerLeft (pieces : List Piece) : Paler (joined pieces) (pieces.flatMap leftText) := by
  induction pieces with
  | nil => exact .nil
  | cons p rest ih =>
    refine List.rel_append ?_ ih
    unfold leftText
    split
    · exact List.forall₂_map_right_iff.mpr (List.forall₂_same.mpr fun _ _ => .inr rfl)
    · exact List.forall₂_same.mpr fun _ _ => .inl rfl

theorem standsPaler {p : Piece} {one other : Text} (stands : p.Stands one) (plain : p.isInert = false)
    (paler : Paler one other) : p.Stands other := by
  obtain ⟨shape, ends⟩ := stands
  refine ⟨shape, ?_⟩
  cases p with
  | mark m =>
    exact ⟨fun grows => haltsPaler rfl paler (ends.1 grows), fun slash => haltsPaler rfl paler (ends.2 slash)⟩
  | word letters => exact haltsPaler rfl paler ends
  | comment body => contradiction
  | unclosed body =>
    obtain rfl : one = [] := ends
    cases paler
    rfl
  | number n =>
    refine ⟨haltsPaler rfl paler ends.1, fun whole d more same => ?_⟩
    subst same
    cases paler with
    | cons point behind =>
      obtain rfl : '.' = _ := point.resolve_right (by decide)
      cases behind with
      | cons digit _ =>
        rcases digit with rfl | rfl
        · exact ends.2 whole d _ rfl
        · rfl
  | _ => trivial

theorem cutSpaces (text rest : Text) :
    cut (text.map (fun _ => ' ') ++ rest) = text.map (fun _ => blank ' ') ++ cut rest := by
  induction text with
  | nil => rfl
  | cons c text ih =>
    have stands : (blank ' ').Stands (text.map (fun _ => ' ') ++ rest) := ⟨rfl, trivial⟩
    rw [List.map_cons, List.map_cons, List.cons_append, List.cons_append, ← ih]
    exact cutStands stands

theorem cutLeft {p : Piece} {one other : Text} (stands : p.Stands one) (paler : Paler one other) :
    cut (p.leftText ++ other) = p.leftPieces ++ cut other := by
  unfold leftText leftPieces
  cases inert : p.isInert with
  | true => exact cutSpaces p.text other
  | false => exact cutStands (standsPaler stands inert paler)

theorem cutBlanked (source : Text) : cut source.blanked = (cut source).flatMap leftPieces := by
  rw [blankedPieces]
  induction source using pieceInduction with
  | nothing => rw [cutEmpty]; exact cutEmpty
  | piece p rest stands ih =>
    have paler := palerLeft (cut rest)
    rw [joinedCut] at paler
    rw [cutStands stands, List.flatMap_cons, List.flatMap_cons, cutLeft stands paler, ih]

end Piece

def Finding.isUnexpected (f : Finding) : Bool := f.report?.any Diagnostic.isUnexpected

namespace Position

theorem spacesSilent (p : Position) (text : Text) : p.findings (text.map fun _ => .blank ' ') = [] := by
  induction text generalizing p with
  | nil => rfl
  | cons c text ih => exact ih _

end Position

namespace Piece

theorem spacesFeedless (text : Text) : Text.lineFeeds (text.map fun _ => ' ') = 0 := by
  refine List.count_eq_zero_of_not_mem fun member => ?_
  obtain ⟨_, _, same⟩ := List.mem_map.mp member
  contradiction

theorem inertFeedless {p : Piece} (shape : p.WellFormed) (inert : p.isInert = true) : p.text.lineFeeds = 0 := by
  cases p with
  | comment body =>
    have inside : '\n' ∉ body := shape
    exact List.count_eq_zero_of_not_mem (by simpa [text] using inside)
  | stray c =>
    have notFeed := (strayPlain shape).1
    exact List.count_eq_zero_of_not_mem (by simpa [text] using notFeed.symm)
  | _ => contradiction

theorem leftLines {p : Piece} (shape : p.WellFormed) : p.leftText.lineFeeds = p.text.lineFeeds := by
  unfold leftText
  split
  · rename_i inert
    rw [spacesFeedless, inertFeedless shape inert]
  · rfl

theorem joinedLeft (p : Piece) : joined p.leftPieces = p.leftText := by
  unfold leftPieces leftText
  split
  · have cuts := cutSpaces p.text []
    rw [cutEmpty, List.append_nil, List.append_nil] at cuts
    rw [← cuts, joinedCut]
  · simp [joined]

theorem leftFindings (p : Position) (piece : Piece) :
    p.findings piece.leftPieces = (p.findings [piece]).filter (fun f => !f.isUnexpected) := by
  cases piece with
  | comment body => exact Position.spacesSilent p _
  | stray c => exact Position.spacesSilent p _
  | _ => rfl

end Piece

theorem blankedLines (source : Text) : source.blanked.lineFeeds = source.lineFeeds := by
  rw [blankedPieces]
  induction source using Piece.pieceInduction with
  | nothing => rw [Piece.cutEmpty]; rfl
  | piece piece rest stands ih =>
    rw [Piece.cutStands stands, List.flatMap_cons, Text.lineFeedsAppend, Text.lineFeedsAppend, ih,
      Piece.leftLines stands.wellFormed]

theorem blankedAt (source : Text) (p : Position) : p.findings (Piece.cut source.blanked) =
    (p.findings (Piece.cut source)).filter (fun f => !f.isUnexpected) := by
  rw [Piece.cutBlanked]
  induction source using Piece.pieceInduction generalizing p with
  | nothing => rw [Piece.cutEmpty]; rfl
  | piece piece rest stands ih =>
    have next : (p.after (Piece.joined piece.leftPieces)).line = (p.after piece.text).line := by
      rw [Piece.joinedLeft, Position.after, Position.after, Piece.leftLines stands.wellFormed]
    rw [Piece.cutStands stands, List.flatMap_cons, Position.findingsAppend, Position.sameLine next _, ih,
      Piece.leftFindings, Position.findingsHead p piece (Piece.cut rest), List.filter_append]

namespace Scan

theorem blankedFindings (source : Text) : (ofText source.blanked).findings =
    (ofText source).findings.filter (fun f => !f.isUnexpected) :=
  blankedAt source Position.first

theorem blankedLexemes (source : Text) : (ofText source.blanked).lexemes = (ofText source).lexemes := by
  have kept : ∀ {f t}, Finding.token? f = some t → true = !f.isUnexpected := by
    intro f t seen
    cases f with
    | token other => rfl
    | error e => contradiction
  rw [lexemes, lexemes, blankedFindings, ← viewFilter kept, List.filter_true]

theorem blankedErrors (source : Text) :
    (ofText source.blanked).errors = (ofText source).errors.filter fun e => !e.diagnostic.isUnexpected := by
  rw [errors, errors, blankedFindings]
  refine (viewFilter (fun {f e} seen => ?_) _).symm
  cases f with
  | token t => contradiction
  | error other =>
    obtain rfl : other = e := Option.some.inj seen
    rfl

theorem blankedDiagnostics (source : Text) :
    (ofText source.blanked).diagnostics = (ofText source).diagnostics.filter fun d => !d.isUnexpected := by
  rw [diagnostics, diagnostics, blankedErrors, List.filter_map]
  rfl

end Scan

namespace Mode

theorem blankedStep {mode : Mode} {c : Char} {rest : Text} (alone : mode = code → c = '/' → Halts (· == '/') rest) :
    mode.blanked (c :: rest) = mode.left c :: (mode.after c).blanked rest := by
  rw [blanked]
  rintro more rfl rfl rfl
  have halts := haltsCons.mp (alone rfl rfl)
  simp at halts

theorem blankedKeeps {mode : Mode} {text : Text} (keeps : ∀ c ∈ text, Keeps mode c) (rest : Text) :
    mode.blanked (text ++ rest) = text.map mode.left ++ mode.blanked rest := by
  induction text with
  | nil => rfl
  | cons c text ih =>
    obtain ⟨⟨same, alone, _⟩, others⟩ := List.forall_mem_cons.mp keeps
    rw [List.cons_append, blankedStep fun code slash => absurd slash (alone code), same, ih others]
    rfl

theorem blankedCode {text : Text} (keeps : ∀ c ∈ text, Keeps code c) (rest : Text) :
    code.blanked (text ++ rest) = text ++ code.blanked rest := by
  rw [blankedKeeps keeps]
  refine congrArg (· ++ code.blanked rest) ((List.map_congr_left fun c member => ?_).trans (List.map_id text))
  exact if_pos ((keeps c member).known rfl)

theorem blankedBehindComment {rest : Text} (halts : Halts (· != '\n') rest) :
    comment.blanked rest = code.blanked rest := by
  cases rest with
  | nil => rfl
  | cons c rest =>
    obtain rfl : c = '\n' := by simpa using haltsCons.mp halts
    rw [blankedStep (by simp), blankedStep (by simp)]
    rfl

end Mode

namespace Piece

open Mode (blankedStep blankedKeeps blankedCode blankedBehindComment)

theorem blankedPiece {p : Piece} {rest : Text} (stands : p.Stands rest) :
    Mode.code.blanked (p.text ++ rest) = p.leftText ++ Mode.code.blanked rest := by
  obtain ⟨shape, ends⟩ := stands
  have quote (after : Text) : Mode.code.blanked ('"' :: after) = '"' :: Mode.string.blanked after :=
    blankedStep (by simp)
  have inString (body : Text) : body.map Mode.string.left = body := List.map_id body
  cases p with
  | mark m =>
    by_cases slash : m = .slash
    · subst slash
      exact blankedStep fun _ _ => ends.2 rfl
    · exact blankedCode (markKeeps slash) rest
  | word letters => exact blankedCode (wordKeeps shape) rest
  | number n => exact blankedCode (numberKeeps shape) rest
  | blank c => exact blankedCode (List.forall_mem_singleton.mpr (whiteKeeps (.inl shape))) rest
  | lineFeed => exact blankedCode (List.forall_mem_singleton.mpr (whiteKeeps (.inr rfl))) rest
  | string body =>
    have text : (string body).text ++ rest = '"' :: (body ++ '"' :: rest) := by simp [Piece.text]
    rw [text, quote, blankedKeeps (stringKeeps shape), blankedStep (by simp), inString]
    have whole : (string body).leftText ++ Mode.code.blanked rest = '"' :: (body ++ '"' :: Mode.code.blanked rest) := by
      simp [leftText, isInert, Piece.text]
    exact whole.symm
  | unclosed body =>
    obtain rfl : rest = [] := ends
    have text : (unclosed body).text ++ [] = '"' :: (body ++ []) := rfl
    rw [text, quote, blankedKeeps (stringKeeps shape), inString]
    rfl
  | comment body =>
    have text : (comment body).text ++ rest = '/' :: '/' :: (body ++ rest) := rfl
    have spaces : body.map Mode.comment.left = body.map fun _ => ' ' := by
      refine List.map_congr_left fun c member => if_neg ?_
      rintro rfl
      exact absurd member shape
    rw [text, Mode.blanked, blankedKeeps (commentKeeps shape), blankedBehindComment ends, spaces]
    rfl
  | stray c =>
    have stray : isStray c = true := shape
    have unknown : isKnown c = false := by simpa [strayUnknown] using stray
    have notSlash : c ≠ '/' := by rintro rfl; contradiction
    have notQuote : c ≠ '"' := by rintro rfl; contradiction
    refine (blankedStep fun _ slash => absurd slash notSlash).trans ?_
    rw [Mode.left, unknown, Mode.after, if_neg notQuote]
    rfl

end Piece

theorem blankedModes (source : Text) : source.blanked = Mode.code.blanked source := by
  rw [blankedPieces]
  induction source using Piece.pieceInduction with
  | nothing => rw [Piece.cutEmpty]; rfl
  | piece piece rest stands ih =>
    rw [Piece.cutStands stands, List.flatMap_cons, ih, Piece.blankedPiece stands]

example : Text.blanked "a@//é\n\"//@\"".toList = "a    \n\"//@\"".toList := by decide +kernel

theorem Scanner.errorsAndCommentsInert (source : Text) :
    (∀ site ∈ Site.ofText source, ∃ after, source = site.before ++ (site.piece.text ++ after) ∧
      site.piece.Stands after) ∧
    source.blanked = Mode.code.blanked source ∧
    ∃ s t, (fresh source).scanTokens = some s ∧ (fresh source.blanked).scanTokens = some t ∧
      s.errors = (Site.ofText source).filterMap (Site.error? source) ∧
      t.tokens = s.tokens ∧
      t.errors = s.errors.filter (fun e => !e.diagnostic.isUnexpected) ∧
      t.diagnostics = s.diagnostics.filter (fun d => !d.isUnexpected) := by
  obtain ⟨s, answered, tokens, errors, diagnostics⟩ := scanAnswers source
  obtain ⟨t, answeredBlank, tokensBlank, errorsBlank, diagnosticsBlank⟩ := scanAnswers source.blanked
  refine ⟨fun site member => ?_, blankedModes source, s, t, answered, answeredBlank, ?_, ?_, ?_, ?_⟩
  · obtain ⟨front, back, sites⟩ := List.append_of_mem member
    obtain ⟨after, text, stands, _⟩ := Site.seam sites
    exact ⟨after, text, stands⟩
  · rw [errors, Scan.errorSites]
  · rw [tokensBlank, tokens, Scan.tokens, Scan.tokens, Scan.blankedLexemes, Scan.finishLine, Scan.finishLine, blankedLines]
  · rw [errorsBlank, errors, Scan.blankedErrors]
  · rw [diagnosticsBlank, diagnostics, Scan.blankedDiagnostics]

end LoxLexer
