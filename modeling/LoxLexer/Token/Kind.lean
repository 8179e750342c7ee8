import LoxLexer.Text
/-! The kinds of token: fixed marks, sixteen reserved words, and the three open classes, closed by
the end of the source. A kind's name is what a token dump shows first. -/
namespace LoxLexer

inductive Mark where
  | leftParen | rightParen | leftBrace | rightBrace | comma | dot | minus | plus
  | semicolon | slash | star
  | bang | bangEqual | equal | equalEqual | greater | greaterEqual | less | lessEqual
  deriving DecidableEq, Repr

inductive Keyword where
  | andWord | classWord | elseWord | falseWord | forWord | funWord | ifWord | nilWord
  | orWord | printWord | returnWord | superWord | thisWord | trueWord | varWord | whileWord
  deriving DecidableEq, Repr

inductive Kind where
  | mark (mark : Mark)
  | keyword (keyword : Keyword)
  | identifier
  | string
  | number
  | eof
  deriving DecidableEq, Repr

namespace Mark

def all : List Mark :=
  [leftParen, rightParen, leftBrace, rightBrace, comma, dot, minus, plus, semicolon, slash, star,
   bang, bangEqual, equal, equalEqual, greater, greaterEqual, less, lessEqual]

def spelling : Mark → Text
  | leftParen => ['('] | rightParen => [')'] | leftBrace => ['{'] | rightBrace => ['}']
  | comma => [','] | dot => ['.'] | minus => ['-'] | plus => ['+']
  | semicolon => [';'] | slash => ['/'] | star => ['*']
  | bang => ['!'] | bangEqual => ['!', '='] | equal => ['='] | equalEqual => ['=', '=']
  | greater => ['>'] | greaterEqual => ['>', '='] | less => ['<'] | lessEqual => ['<', '=']

def name : Mark → Text
  | leftParen => "LeftParen".toList | rightParen => "RightParen".toList
  | leftBrace => "LeftBrace".toList | rightBrace => "RightBrace".toList
  | comma => "Comma".toList | dot => "Dot".toList
  | minus => "Minus".toList | plus => "Plus".toList
  | semicolon => "Semicolon".toList | slash => "Slash".toList | star => "Star".toList
  | bang => "Bang".toList | bangEqual => "BangEqual".toList
  | equal => "Equal".toList | equalEqual => "EqualEqual".toList
  | greater => "Greater".toList | greaterEqual => "GreaterEqual".toList
  | less => "Less".toList | lessEqual => "LessEqual".toList

def ofChar? (c : Char) : Option Mark := all.find? fun mark => mark.spelling == [c]

def withEqual? : Mark → Option Mark
  | bang => some bangEqual
  | equal => some equalEqual
  | greater => some greaterEqual
  | less => some lessEqual
  | _ => none

theorem allComplete (mark : Mark) : mark ∈ all := by cases mark <;> decide

theorem spellingInjective {a b : Mark} (same : a.spelling = b.spelling) : a = b := by
  cases a <;> cases b <;> first | rfl | exact absurd same (by decide)

theorem ofCharExact {c : Char} {mark : Mark} : ofChar? c = some mark ↔ mark.spelling = [c] := by
  constructor
  · intro found
    simpa using List.find?_some found
  · intro spelt
    cases found : ofChar? c with
    | none =>
      have missed := List.find?_eq_none.mp found mark (allComplete mark)
      exact absurd (beq_iff_eq.mpr spelt) missed
    | some other =>
      have matched : other.spelling = [c] := by simpa using List.find?_some found
      rw [spellingInjective (matched.trans spelt.symm)]

theorem withEqualSpelling {mark longer : Mark} (grows : mark.withEqual? = some longer) :
    longer.spelling = mark.spelling ++ ['='] := by
  cases mark <;> simp [withEqual?] at grows <;> subst grows <;> rfl

end Mark

namespace Keyword

def all : List Keyword :=
  [andWord, classWord, elseWord, falseWord, forWord, funWord, ifWord, nilWord,
   orWord, printWord, returnWord, superWord, thisWord, trueWord, varWord, whileWord]

def spelling : Keyword → Text
  | andWord => "and".toList | classWord => "class".toList
  | elseWord => "else".toList | falseWord => "false".toList
  | forWord => "for".toList | funWord => "fun".toList
  | ifWord => "if".toList | nilWord => "nil".toList
  | orWord => "or".toList | printWord => "print".toList
  | returnWord => "return".toList | superWord => "super".toList
  | thisWord => "this".toList | trueWord => "true".toList
  | varWord => "var".toList | whileWord => "while".toList

def name : Keyword → Text
  | andWord => "And".toList | classWord => "Class".toList
  | elseWord => "Else".toList | falseWord => "False".toList
  | forWord => "For".toList | funWord => "Fun".toList
  | ifWord => "If".toList | nilWord => "Nil".toList
  | orWord => "Or".toList | printWord => "Print".toList
  | returnWord => "Return".toList | superWord => "Super".toList
  | thisWord => "This".toList | trueWord => "True".toList
  | varWord => "Var".toList | whileWord => "While".toList

def ofText? (text : Text) : Option Keyword := all.find? fun keyword => keyword.spelling == text

theorem allComplete (keyword : Keyword) : keyword ∈ all := by cases keyword <;> decide

theorem spellingInjective {a b : Keyword} (same : a.spelling = b.spelling) : a = b := by
  cases a <;> cases b <;> first | rfl | exact absurd same (by decide)

theorem ofTextExact {text : Text} {keyword : Keyword} :
    ofText? text = some keyword ↔ keyword.spelling = text := by
  constructor
  · intro found
    simpa using List.find?_some found
  · intro spelt
    cases found : ofText? text with
    | none =>
      have missed := List.find?_eq_none.mp found keyword (allComplete keyword)
      exact absurd (beq_iff_eq.mpr spelt) missed
    | some other =>
      have matched : other.spelling = text := by simpa using List.find?_some found
      rw [spellingInjective (matched.trans spelt.symm)]

end Keyword

namespace Kind

def all : List Kind :=
  Mark.all.map mark ++ Keyword.all.map keyword ++ [identifier, string, number, eof]

def name : Kind → Text
  | mark m => m.name
  | keyword k => k.name
  | identifier => "Identifier".toList
  | string => "String".toList
  | number => "Number".toList
  | eof => "EOF".toList

def ofName? (text : Text) : Option Kind := all.find? fun kind => kind.name == text

def ofWord (word : Text) : Kind := (Keyword.ofText? word).elim identifier keyword

theorem allComplete (kind : Kind) : kind ∈ all := by
  cases kind with
  | mark m => simp [all, Mark.allComplete m]
  | keyword k => simp [all, Keyword.allComplete k]
  | _ => simp [all]

end Kind
end LoxLexer
