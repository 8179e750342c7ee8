import LoxLexer.Proofs.Boundary
/-! The grammar of lexemes, said of texts alone: which texts a kind of token is spelt with, and which
texts only separate. No reader occurs in it. Each of its texts is the text of one piece and no other. -/
namespace LoxLexer

def IsDigits (text : Text) : Prop := text ≠ [] ∧ ∀ c ∈ text, c.isDigit = true

inductive Spells : Kind → Text → Prop where
  | mark (m : Mark) : Spells (.mark m) m.spelling
  | keyword (k : Keyword) : Spells (.keyword k) k.spelling
  | identifier {word : Text} (shape : IsWord word) (free : ∀ k : Keyword, k.spelling ≠ word) :
      Spells .identifier word
  | whole {digits : Text} (shape : IsDigits digits) : Spells .number digits
  | fraction {whole fraction : Text} (left : IsDigits whole) (right : IsDigits fraction) :
      Spells .number (whole ++ '.' :: fraction)
  | string {body : Text} (inside : '"' ∉ body) : Spells .string ('"' :: body ++ ['"'])

inductive Separates : Text → Prop where
  | blank {c : Char} (blank : c = ' ' ∨ c = '\t' ∨ c = '\r') : Separates [c]
  | lineFeed : Separates ['\n']
  | comment {body : Text} (inside : '\n' ∉ body) : Separates ('/' :: '/' :: body)

inductive Role where
  | token (kind : Kind)
  | separator
  | stray
  | unclosed
  deriving DecidableEq, Repr

def Role.Lexeme : Role → Text → Prop
  | token kind, text => Spells kind text
  | separator, text => Separates text
  | stray, _ | unclosed, _ => False

def Piece.role : Piece → Role
  | mark m => .token (.mark m)
  | word letters => .token (.ofWord letters)
  | number _ => .token .number
  | string _ => .token .string
  | blank _ | lineFeed | comment _ => .separator
  | stray _ => .stray
  | unclosed _ => .unclosed

theorem keywordIsWord (k : Keyword) : IsWord k.spelling := by
  cases k <;> exact ⟨by decide, List.all_eq_true.mp (by decide)⟩

namespace Kind

theorem ofWordKeyword (k : Keyword) : ofWord k.spelling = .keyword k := by
  simp [ofWord, Keyword.ofTextExact.mpr rfl]

theorem ofWordIdentifier {word : Text} (free : ∀ k : Keyword, k.spelling ≠ word) :
    ofWord word = .identifier := by
  have none : Keyword.ofText? word = none :=
    Option.eq_none_iff_forall_ne_some.mpr fun k found => free k (Keyword.ofTextExact.mp found)
  simp [ofWord, none]

theorem ofWordSpells {word : Text} (shape : IsWord word) : Spells (ofWord word) word := by
  cases found : Keyword.ofText? word with
  | none =>
    have free : ∀ k : Keyword, k.spelling ≠ word := by
      intro k spelt
      rw [Keyword.ofTextExact.mpr spelt] at found
      contradiction
    rw [ofWordIdentifier free]
    exact .identifier shape free
  | some k =>
    rw [← Keyword.ofTextExact.mp found, ofWordKeyword]
    exact .keyword k

end Kind

theorem numeralSpells {n : Numeral} (shape : n.WellFormed) : Spells .number n.text := by
  obtain ⟨some, whole, digits⟩ := shape
  obtain ⟨body, fraction⟩ := n
  cases fraction with
  | nil => exact .whole ⟨some, whole⟩
  | cons d more => exact .fraction ⟨some, whole⟩ ⟨List.cons_ne_nil d more, digits⟩

theorem blankCases {c : Char} : isBlank c = true ↔ c = ' ' ∨ c = '\t' ∨ c = '\r' := by
  simp [isBlank, or_assoc]

namespace Piece

def IsFault : Piece → Prop
  | stray _ | unclosed _ => True
  | _ => False

theorem lexeme {p : Piece} (shape : p.WellFormed) (sound : ¬ p.IsFault) : p.role.Lexeme p.text := by
  cases p with
  | mark m => exact .mark m
  | word letters => exact Kind.ofWordSpells shape
  | number n => exact numeralSpells shape
  | string body => exact .string shape
  | blank c => exact .blank (blankCases.mp shape)
  | lineFeed => exact .lineFeed
  | comment body => exact .comment shape
  | stray c => exact absurd trivial sound
  | unclosed body => exact absurd trivial sound

theorem ofSpelling {kind : Kind} {text : Text} (spells : Spells kind text) :
    ∃ p : Piece, p.WellFormed ∧ p.text = text ∧ p.role = .token kind := by
  cases spells with
  | mark m => exact ⟨mark m, trivial, rfl, rfl⟩
  | keyword k => exact ⟨word k.spelling, keywordIsWord k, rfl, congrArg Role.token (Kind.ofWordKeyword k)⟩
  | identifier shape free =>
    exact ⟨word text, shape, rfl, congrArg Role.token (Kind.ofWordIdentifier free)⟩
  | whole shape => exact ⟨number ⟨text, []⟩, ⟨shape.1, shape.2, by simp⟩, rfl, rfl⟩
  | @fraction whole fraction left right =>
    refine ⟨number ⟨whole, fraction⟩, ⟨left.1, left.2, right.2⟩, ?_, rfl⟩
    cases fraction with
    | nil => exact absurd rfl right.1
    | cons d more => rfl
  | @string body inside => exact ⟨string body, inside, rfl, rfl⟩

theorem ofLexeme {role : Role} {text : Text} (member : role.Lexeme text) :
    ∃ p : Piece, p.WellFormed ∧ p.text = text ∧ p.role = role ∧ ¬ p.IsFault := by
  have sound {p : Piece} (same : p.role = role) : ¬ p.IsFault := by
    subst same
    cases p <;> first | exact id | exact absurd member id
  suffices ∃ p : Piece, p.WellFormed ∧ p.text = text ∧ p.role = role by
    obtain ⟨p, shape, spelt, same⟩ := this
    exact ⟨p, shape, spelt, same, sound same⟩
  cases role with
  | token kind => exact ofSpelling member
  | separator =>
    cases member with
    | @blank c white => exact ⟨blank c, blankCases.mpr white, rfl, rfl⟩
    | lineFeed => exact ⟨lineFeed, trivial, rfl, rfl⟩
    | @comment body inside => exact ⟨comment body, inside, rfl, rfl⟩
  | stray => exact absurd member id
  | unclosed => exact absurd member id

end Piece
end LoxLexer
