import LoxLexer.Proofs.Lines
import LoxLexer.Main.PlainSettings
import LoxLexer.Text.Utf8
/-! The log of a scan. Between its first and its last event it mentions what the scan finds, place by place in
the source: a token where it stands, an error where it was made. So tokens and reports can be read off it. -/
namespace LoxLexer

namespace Event

def token? : Event → Option Token
  | tokenFound t => some t
  | _ => none

end Event

namespace Site

theorem stands (source before : Text) : ∀ s ∈ behind before (Piece.cut source),
    ∃ after, before ++ source = s.before ++ (s.piece.text ++ after) ∧ s.piece.Stands after := by
  induction source using Piece.pieceInduction generalizing before with
  | nothing => simp [Piece.cutEmpty, behind]
  | piece piece rest stands ih =>
    rw [Piece.cutStands stands]
    refine List.forall_mem_cons.mpr ⟨⟨rest, rfl, stands⟩, fun s member => ?_⟩
    obtain ⟨after, text, there⟩ := ih (before ++ piece.text) s member
    rw [List.append_assoc] at text
    exact ⟨after, text, there⟩

theorem rise (source before : Text) :
    (behind before (Piece.cut source)).Pairwise fun a b => a.before.length < b.before.length := by
  induction source using Piece.pieceInduction generalizing before with
  | nothing => simp [Piece.cutEmpty, behind]
  | piece piece rest stands ih =>
    rw [Piece.cutStands stands]
    refine List.Pairwise.cons (fun s member => ?_) (ih (before ++ piece.text))
    obtain ⟨c, cs, text⟩ := Piece.textNonempty stands.wellFormed
    obtain ⟨front, _, _, further⟩ := behindMember member
    rw [further, text]
    simp only [List.length_append, List.length_cons]
    omega

end Site

namespace Scan

end Scan

end LoxLexer
