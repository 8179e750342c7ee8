import LoxLexer.Calls
import LoxLexer.Proofs.Cursor
/-! One scan for a scanner. Whatever is asked of it first makes it scan its source, and from then on it only hands over
what it has, so it does not matter how often it is asked, nor whether it is given up at the end. -/
namespace LoxLexer

def Answer.quiet {ρ : Type} (a : Answer ρ) : Answer ρ := { a with told := [] }

def Answer.repeated {ρ : Type} (first : Answer ρ) : Nat → List (Answer ρ)
  | 0 => []
  | later + 1 => first :: List.replicate later first.quiet

namespace Scanner

variable {ρ : Type} (report : ρ → Diagnostic → ρ)

theorem askAgain {s : Scanner} (scanned : s.scanned = true) (reporter : ρ) :
    s.ask report reporter = some (s, ⟨s.tokens, [], reporter⟩) := by
  have same : s.scanTokens = some s := by rw [scanTokens, if_pos scanned]
  rw [ask, same, Option.map_some, List.drop_length]
  rfl

theorem answersAgain {s : Scanner} (scanned : s.scanned = true) (reporter : ρ) (calls : Calls) :
    s.answers report reporter calls = some (List.replicate calls.number ⟨s.tokens, [], reporter⟩) := by
  induction calls with
  | none => rfl
  | surrender =>
    rw [answers, surrender, askAgain report scanned]
    rfl
  | ask later ih =>
    rw [answers, askAgain report scanned, Option.bind_some, ih]
    rfl

theorem askFresh (source : Text) (reporter : ρ) : ∃ s, s.scanned = true ∧
    s.tokens = (Scan.ofText source).tokens ∧ (fresh source).ask report reporter = some (s,
      ⟨s.tokens, (Scan.ofText source).entries, (Scan.ofText source).diagnostics.foldl report reporter⟩) := by
  obtain ⟨s, answered, scanned, tokens, entries⟩ := scanTokensExact source
  refine ⟨s, scanned, tokens, ?_⟩
  rw [ask, answered, Option.map_some, ← scanDiagnostics, ← entries]
  rfl

theorem oneScanPerScanner (reporter : ρ) (source : Text) (calls : Calls) :
    (fresh source).tokens = [] ∧ (fresh source).entries = [] ∧
    ∃ first, tokenize report source reporter = some first ∧ first.tokens = (Scan.ofText source).tokens ∧
      first.told = (Scan.ofText source).entries ∧
      first.reporter = (Scan.ofText source).diagnostics.foldl report reporter ∧
      (fresh source).answers report reporter calls = some (first.repeated calls.number) := by
  obtain ⟨s, scanned, tokens, asked⟩ := askFresh report source reporter
  have given : tokenize report source reporter = some _ := congrArg (Option.map Prod.snd) asked
  refine ⟨rfl, rfl, _, given, tokens, rfl, rfl, ?_⟩
  cases calls with
  | none => rfl
  | surrender =>
    rw [answers, surrender, asked]
    rfl
  | ask later =>
    rw [answers, asked, Option.bind_some, answersAgain report scanned]
    rfl

end Scanner
end LoxLexer
