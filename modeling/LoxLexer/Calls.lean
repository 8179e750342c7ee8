import LoxLexer.Scanner
/-! A scanner in use. It is asked for its tokens any number of times, and may at the end be given up for them. What it
reports goes to a reporter that it is lent, and that nobody else uses meanwhile. -/
namespace LoxLexer

inductive Calls where
  | none
  | surrender
  | ask (later : Calls)
  deriving DecidableEq, Repr

structure Answer (ρ : Type) where
  tokens : List Token
  told : List Entry
  reporter : ρ
  deriving DecidableEq, Repr

def Calls.number : Calls → Nat
  | none => 0
  | surrender => 1
  | ask later => later.number + 1

namespace Scanner

variable {ρ : Type} (report : ρ → Diagnostic → ρ)

def ask (s : Scanner) (reporter : ρ) : Option (Scanner × Answer ρ) :=
  s.scanTokens.map fun t =>
    let told := t.entries.drop s.entries.length
    (t, ⟨t.tokens, told, (told.filterMap Entry.diagnostic?).foldl report reporter⟩)

def surrender (s : Scanner) (reporter : ρ) : Option (Answer ρ) := (s.ask report reporter).map Prod.snd

def tokenize (source : Text) (reporter : ρ) : Option (Answer ρ) := (fresh source).surrender report reporter

def answers (s : Scanner) (reporter : ρ) : Calls → Option (List (Answer ρ))
  | .none => some []
  | .surrender => (s.surrender report reporter).map fun answer => [answer]
  | .ask later =>
    (s.ask report reporter).bind fun next =>
      (next.1.answers next.2.reporter later).map fun rest => next.2 :: rest

end Scanner
end LoxLexer
