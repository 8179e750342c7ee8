import LoxLexer.Scan
import Mathlib.Data.List.Basic
/-! What a scan finds, piece by piece. Only the line of a finding depends on what was read before its
piece, and moving a source down by some lines moves every line by as many. -/
namespace LoxLexer

def Token.content (t : Token) : Kind × Text × Option Literal := (t.kind, t.lexeme, t.literal)

def Token.down (lines : Nat) (t : Token) : Token := { t with line := t.line + lines }

def LexicalError.down (lines : Nat) : LexicalError → LexicalError
  | unexpectedCharacter line character => unexpectedCharacter (line + lines) character
  | unterminatedString line start => unterminatedString (line + lines) start

def Diagnostic.down (lines : Nat) (d : Diagnostic) : Diagnostic := { d with line := d.line + lines }

def Finding.down (lines : Nat) : Finding → Finding
  | token t => token (t.down lines)
  | error e => error (e.down lines)

def Finding.line : Finding → Nat
  | token t => t.line
  | error e => e.line

def Finding.report? (f : Finding) : Option Diagnostic := f.error?.map LexicalError.diagnostic

def Piece.content? (p : Piece) : Option (Kind × Text × Option Literal) :=
  p.kind?.map fun kind => (kind, p.text, p.literal?)

def Piece.complaint? : Piece → Option Text
  | stray _ => some "Unexpected character.".toList
  | unclosed _ => some "Unterminated string.".toList
  | _ => none

def Position.findings (p : Position) (pieces : List Piece) : List Finding :=
  (p.place pieces).filterMap Placed.finding?

theorem tokenDown (lines : Nat) (f : Finding) : (f.down lines).token? = f.token?.map (Token.down lines) := by
  cases f <;> rfl

theorem errorDown (lines : Nat) (f : Finding) :
    (f.down lines).error? = f.error?.map (LexicalError.down lines) := by
  cases f <;> rfl

theorem reportDown (lines : Nat) (f : Finding) :
    (f.down lines).report? = f.report?.map (Diagnostic.down lines) := by
  cases f with
  | token t => rfl
  | error e => cases e <;> rfl

theorem tokenLine {f : Finding} {t : Token} (seen : f.token? = some t) : t.line = f.line := by
  cases f with
  | token other => exact congrArg Token.line (Option.some.inj seen).symm
  | error e => contradiction

theorem reportLine {f : Finding} {d : Diagnostic} (seen : f.report? = some d) : d.line = f.line := by
  cases f with
  | token t => contradiction
  | error e => exact congrArg Diagnostic.line (Option.some.inj seen).symm

theorem lineDown (lines : Nat) (f : Finding) : (f.down lines).line = f.line + lines := by
  cases f with
  | token t => rfl
  | error e => cases e <;> rfl

theorem downNothing (f : Finding) : f.down 0 = f := by
  cases f with
  | token t => rfl
  | error e => cases e <;> rfl

theorem downTwice (a b : Nat) (f : Finding) : (f.down a).down b = f.down (a + b) := by
  cases f with
  | token t => simp [Finding.down, Token.down, Nat.add_assoc]
  | error e => cases e <;> simp [Finding.down, LexicalError.down, Nat.add_assoc]

theorem viewChange {β : Type} {view : Finding → Option β} {change : Finding → Finding} {move : β → β}
    (moves : ∀ f, view (change f) = (view f).map move) (findings : List Finding) :
    (findings.map change).filterMap view = (findings.filterMap view).map move := by
  rw [List.filterMap_map, List.map_filterMap]
  exact List.filterMap_congr fun f _ => moves f

theorem viewFilter {β : Type} {view : Finding → Option β} {keep : β → Bool} {kept : Finding → Bool}
    (same : ∀ {f b}, view f = some b → keep b = kept f) (findings : List Finding) :
    (findings.filterMap view).filter keep = (findings.filter kept).filterMap view := by
  rw [List.filter_filterMap, List.filterMap_filter]
  refine List.filterMap_congr fun f _ => ?_
  cases seen : view f with
  | none => simp
  | some b => simp [Option.filter, same seen]

theorem viewLine {β : Type} {view : Finding → Option β} {line : β → Nat}
    (keeps : ∀ {f b}, view f = some b → line b = f.line) (findings : List Finding) (n : Nat) :
    (findings.filterMap view).filter (fun b => line b == n) =
      (findings.filter fun f => f.line == n).filterMap view :=
  viewFilter (fun seen => by rw [keeps seen]) findings

theorem lineFilterDown (lines n : Nat) (findings : List Finding) :
    (findings.map (Finding.down lines)).filter (fun f => f.line == n + lines) =
      (findings.filter fun f => f.line == n).map (Finding.down lines) := by
  have same : ∀ f : Finding, ((f.down lines).line == n + lines) = (f.line == n) := by
    intro f
    simp [lineDown]
  rw [List.filter_map]
  exact congrArg _ (List.filter_congr fun f _ => same f)

namespace Position

theorem findingsAppend (p : Position) (a b : List Piece) :
    p.findings (a ++ b) = p.findings a ++ (p.after (Piece.joined a)).findings b := by
  simp only [findings, placeAppend, List.filterMap_append]

theorem findingsCons (p : Position) (piece : Piece) (rest : List Piece) :
    p.findings (piece :: rest) =
      (Placed.finding? ⟨piece, p⟩).toList ++ (p.after piece.text).findings rest := by
  simp only [findings, place, List.filterMap_cons]
  cases Placed.finding? ⟨piece, p⟩ <;> rfl

theorem findingsHead (p : Position) (piece : Piece) (rest : List Piece) :
    p.findings (piece :: rest) = p.findings [piece] ++ (p.after piece.text).findings rest := by
  rw [findingsCons, findingsCons]
  exact congrArg (· ++ _) (List.append_nil _).symm

theorem findingDown (piece : Piece) (p q : Position) (lines : Nat) (below : q.line = p.line + lines) :
    Placed.finding? ⟨piece, q⟩ = (Placed.finding? ⟨piece, p⟩).map (Finding.down lines) := by
  cases piece <;> simp [Placed.finding?, Piece.token?, Piece.kind?, Finding.down, LexicalError.down,
    Token.down, after, below, Nat.add_right_comm]

theorem findingsDown (p q : Position) (lines : Nat) (pieces : List Piece)
    (below : q.line = p.line + lines) : q.findings pieces = (p.findings pieces).map (Finding.down lines) := by
  induction pieces generalizing p q with
  | nil => rfl
  | cons piece rest ih =>
    have next : (q.after piece.text).line = (p.after piece.text).line + lines := by
      simp only [after, below]
      omega
    rw [findingsCons, findingsCons, ih _ _ next, findingDown piece p q lines below, List.map_append]
    cases Placed.finding? ⟨piece, p⟩ <;> rfl

theorem sameLine {p q : Position} (same : q.line = p.line) (pieces : List Piece) :
    q.findings pieces = p.findings pieces := by
  rw [findingsDown p q 0 pieces same, funext downNothing]
  exact List.map_id _

theorem findingLine {piece : Piece} {p : Position} {f : Finding}
    (found : Placed.finding? ⟨piece, p⟩ = some f) :
    p.line ≤ f.line ∧ f.line ≤ (p.after piece.text).line := by
  cases piece <;> simp [Placed.finding?, Piece.token?, Piece.kind?] at found <;> subst found <;>
    simp [Finding.line, LexicalError.line, after]

theorem findingsLine (p : Position) (pieces : List Piece) : ∀ f ∈ p.findings pieces,
    p.line ≤ f.line ∧ f.line ≤ (p.after (Piece.joined pieces)).line := by
  induction pieces generalizing p with
  | nil => simp [findings, place]
  | cons piece rest ih =>
    intro f member
    have joined : Piece.joined (piece :: rest) = piece.text ++ Piece.joined rest := rfl
    rw [joined, afterAppend]
    rw [findingsCons, List.mem_append] at member
    rcases member with here | later
    · obtain ⟨low, high⟩ := findingLine (Option.mem_toList.mp here)
      have further : (p.after piece.text).line ≤ ((p.after piece.text).after (Piece.joined rest)).line :=
        Nat.le_add_right _ _
      exact ⟨low, Nat.le_trans high further⟩
    · obtain ⟨low, high⟩ := ih (p.after piece.text) f later
      exact ⟨Nat.le_trans (Nat.le_add_right _ _) low, high⟩

end Position

namespace Scan

theorem findingsOf (source : Text) :
    (ofText source).findings = Position.first.findings (Piece.cut source) := rfl

theorem diagnosticsOf (s : Scan) : s.diagnostics = s.findings.filterMap Finding.report? := by
  rw [diagnostics, errors, List.map_filterMap]
  rfl

theorem viewPieces {β : Type} {view : Finding → Option β} {seen : Piece → Option β}
    (blind : ∀ p : Placed, p.finding?.bind view = seen p.piece) (source : Text) :
    (ofText source).findings.filterMap view = (Piece.cut source).filterMap seen := by
  rw [← Position.placePieces Position.first (Piece.cut source), findingsOf, Position.findings,
    List.filterMap_filterMap, List.filterMap_map]
  exact List.filterMap_congr fun placed _ => blind placed

theorem contents (source : Text) :
    (ofText source).lexemes.map Token.content = (Piece.cut source).filterMap Piece.content? := by
  have blind : ∀ p : Placed, p.finding?.bind (fun f => f.token?.map Token.content) = p.piece.content? := by
    rintro ⟨piece, start⟩
    cases piece <;> rfl
  rw [lexemes, List.map_filterMap, viewPieces blind]

theorem complaints (source : Text) :
    (ofText source).diagnostics.map Diagnostic.message = (Piece.cut source).filterMap Piece.complaint? := by
  have blind : ∀ p : Placed,
      p.finding?.bind (fun f => f.report?.map Diagnostic.message) = p.piece.complaint? := by
    rintro ⟨piece, start⟩
    cases piece <;> rfl
  rw [diagnosticsOf, List.map_filterMap, viewPieces blind]

theorem findingsPositive (source : Text) : ∀ f ∈ (ofText source).findings, 1 ≤ f.line :=
  fun f member => (Position.findingsLine Position.first _ f member).1

theorem findingsOneLine {source : Text} (single : '\n' ∉ source) :
    ∀ f ∈ (ofText source).findings, f.line = 1 := by
  intro f member
  obtain ⟨low, high⟩ := Position.findingsLine Position.first _ f member
  rw [Piece.joinedCut] at high
  have none : source.lineFeeds = 0 := List.count_eq_zero_of_not_mem single
  simp only [Position.after, none, Position.first] at low high
  omega

theorem finishLine (source : Text) : (ofText source).finish.line = 1 + source.lineFeeds := rfl

end Scan
end LoxLexer
