import LoxLexer.Dump
import LoxLexer.Proofs.Cursor
import LoxLexer.Proofs.RoundTrip
import Mathlib.Data.List.Nodup
/-! Reading a dump back. Nothing in a line is escaped, yet each of its fields tells where it ends: a name or a
lexeme without blanks at the next blank, a string at its second quote, a literal because its lexeme has said it
already. So a dump that another one begins with is that dump, and both show the same tokens. -/
namespace LoxLexer

theorem fieldUnique {stop : Char} {a b front back : Text} (left : stop ∉ a) (right : stop ∉ b)
    (start : a ++ stop :: front <+: b ++ stop :: back) : a = b ∧ front <+: back := by
  induction a generalizing b with
  | nil =>
    cases b with
    | nil => exact ⟨rfl, (List.cons_prefix_cons.mp start).2⟩
    | cons d b =>
      obtain ⟨rfl, _⟩ := List.cons_prefix_cons.mp start
      exact absurd List.mem_cons_self right
  | cons c a ih =>
    cases b with
    | nil =>
      obtain ⟨rfl, _⟩ := List.cons_prefix_cons.mp start
      exact absurd List.mem_cons_self left
    | cons d b =>
      obtain ⟨rfl, rest⟩ := List.cons_prefix_cons.mp start
      obtain ⟨rfl, behind⟩ := ih (List.not_mem_of_not_mem_cons left) (List.not_mem_of_not_mem_cons right) rest
      exact ⟨rfl, behind⟩

namespace Kind

theorem nameInjective {a b : Kind} (same : a.name = b.name) : a = b := by
  have distinct : (all.map name).Nodup := by decide
  exact List.inj_on_of_nodup_map distinct (allComplete a) (allComplete b) same

theorem nameBlankFree (kind : Kind) : ' ' ∉ kind.name := by
  have free : ∀ k ∈ all, ' ' ∉ k.name := by decide
  exact free kind (allComplete kind)

end Kind

theorem wordBlankFree {word : Text} (shape : IsWord word) : ' ' ∉ word := insideFree (wordParts shape) (by decide)

inductive Shown : Kind → Text → Prop where
  | lexeme {kind : Kind} {text : Text} (spells : Spells kind text) : Shown kind text
  | eof : Shown .eof []

theorem shownBlankFree {kind : Kind} {text : Text} (shown : Shown kind text) (other : kind ≠ .string) :
    ' ' ∉ text := by
  cases shown with
  | eof => simp
  | lexeme spells =>
    cases spells with
    | mark m => cases m <;> decide
    | keyword k => exact wordBlankFree (keywordIsWord k)
    | identifier shape free => exact wordBlankFree shape
    | whole shape => exact insideFree shape.2 (by decide)
    | fraction left right =>
      have other : Char.isDigit ' ' = false := by decide
      have whole := insideFree left.2 other
      have fraction := insideFree right.2 other
      simp [whole, fraction]
    | string inside => exact absurd rfl other

theorem shownString {text : Text} (shown : Shown .string text) :
    ∃ body, '"' ∉ body ∧ text = '"' :: (body ++ ['"']) := by
  cases shown with
  | lexeme spells =>
    cases spells with
    | @string body inside => exact ⟨body, inside, rfl⟩

theorem lexemeUnique {kind : Kind} {a b front back : Text} (left : Shown kind a) (right : Shown kind b)
    (start : a ++ ' ' :: front <+: b ++ ' ' :: back) : a = b ∧ front <+: back := by
  by_cases string : kind = .string
  · -- A string may hold blanks; its quotes are stripped before the blank behind it is.
    subst string
    obtain ⟨body, inside, rfl⟩ := shownString left
    obtain ⟨other, insideOther, rfl⟩ := shownString right
    simp only [List.cons_append, List.append_assoc, List.nil_append] at start
    obtain ⟨rfl, behind⟩ := fieldUnique inside insideOther (List.cons_prefix_cons.mp start).2
    exact ⟨rfl, (List.cons_prefix_cons.mp behind).2⟩
  · exact fieldUnique (shownBlankFree left string) (shownBlankFree right string) start

namespace Token

structure Readable (t : Token) : Prop where
  shown : Shown t.kind t.lexeme
  literal : t.literal = Piece.literalOf t.lexeme

theorem dumpLineFields (t : Token) (rest : Text) : t.dumpLine ++ rest =
    t.kind.name ++ ' ' :: (t.lexeme ++ ' ' :: (t.literal.elim [] Literal.text ++ '\n' :: rest)) := by
  simp [dumpLine, dumpParts, parts]

theorem lineUnique {a b : Token} {front back : Text} (left : a.Readable) (right : b.Readable)
    (start : a.dumpLine ++ front <+: b.dumpLine ++ back) : a.content = b.content ∧ front <+: back := by
  simp only [dumpLineFields] at start
  obtain ⟨name, behindName⟩ := fieldUnique (Kind.nameBlankFree a.kind) (Kind.nameBlankFree b.kind) start
  have kind : a.kind = b.kind := Kind.nameInjective name
  obtain ⟨lexeme, behindLexeme⟩ := lexemeUnique left.shown (kind ▸ right.shown) behindName
  have literal : a.literal = b.literal := by rw [left.literal, right.literal, lexeme]
  rw [literal] at behindLexeme
  have behindLiteral := (List.prefix_append_right_inj _).mp behindLexeme
  exact ⟨by rw [content, content, kind, lexeme, literal], (List.cons_prefix_cons.mp behindLiteral).2⟩

theorem eofReadable (line : Nat) : (eof line).Readable := ⟨.eof, by simp [eof, Piece.literalOf, Piece.cutEmpty]⟩

theorem dumpUnique {front back : List Token} {m n : Nat} (left : ∀ t ∈ front, t.Readable ∧ t.kind ≠ .eof)
    (right : ∀ t ∈ back, t.Readable ∧ t.kind ≠ .eof)
    (start : dump (front ++ [eof m]) <+: dump (back ++ [eof n])) : front.map content = back.map content := by
  induction front generalizing back with
  | nil =>
    cases back with
    | nil => rfl
    | cons b back =>
      obtain ⟨readable, other⟩ := right b List.mem_cons_self
      have same := (lineUnique (eofReadable m) readable start).1
      exact absurd (congrArg Prod.fst same).symm other
  | cons a front ih =>
    obtain ⟨⟨readable, other⟩, more⟩ := List.forall_mem_cons.mp left
    cases back with
    | nil =>
      have same := (lineUnique readable (eofReadable n) start).1
      exact absurd (congrArg Prod.fst same) other
    | cons b back =>
      obtain ⟨⟨readableToo, _⟩, moreToo⟩ := List.forall_mem_cons.mp right
      obtain ⟨same, behind⟩ := lineUnique readable readableToo start
      rw [List.map_cons, List.map_cons, same, ih more moreToo behind]

theorem dumpContents {front back : List Token} (same : front.map content = back.map content) :
    dump front = dump back := by
  have shown (tokens : List Token) : dump tokens = (tokens.map content).flatMap fun c =>
      c.1.name ++ ' ' :: (c.2.1 ++ ' ' :: (c.2.2.elim [] Literal.text ++ ['\n'])) := by
    rw [dump, List.flatMap_map]
    refine List.flatMap_congr fun t _ => ?_
    have fields := dumpLineFields t []
    rwa [List.append_nil] at fields
  rw [shown, shown, same]

end Token

theorem Scan.lexemesReadable (source : Text) : ∀ t ∈ (ofText source).lexemes, t.Readable ∧ t.kind ≠ .eof := by
  intro t member
  have spells := lexemeSpelt member
  have literal := literalExact source t (List.mem_append_left _ member)
  refine ⟨⟨.lexeme spells, literal⟩, fun eof => ?_⟩
  rw [eof] at spells
  cases spells

theorem Scanner.dumpsAreDecodable (source other : Text) :
    ∃ s t, (fresh source).scanTokens = some s ∧ (fresh other).scanTokens = some t ∧
      (Token.dump s.tokens <+: Token.dump t.tokens → Token.dump s.tokens = Token.dump t.tokens ∧
        s.tokens.map Token.content = t.tokens.map Token.content) ∧
      (Token.dump s.tokens = Token.dump t.tokens ↔ s.tokens.map Token.content = t.tokens.map Token.content) := by
  obtain ⟨s, answered, tokens, _⟩ := scanAnswers source
  obtain ⟨t, answeredToo, tokensToo, _⟩ := scanAnswers other
  have contents (start : Token.dump s.tokens <+: Token.dump t.tokens) :
      s.tokens.map Token.content = t.tokens.map Token.content := by
    rw [tokens, tokensToo] at start ⊢
    have lexemes := Token.dumpUnique (Scan.lexemesReadable source) (Scan.lexemesReadable other) start
    rw [Scan.tokens, Scan.tokens, List.map_append, List.map_append, lexemes]
    rfl
  refine ⟨s, t, answered, answeredToo, fun start => ?_, fun same => ?_, Token.dumpContents⟩
  · exact ⟨Token.dumpContents (contents start), contents start⟩
  · exact contents (same ▸ List.prefix_rfl)

end LoxLexer
