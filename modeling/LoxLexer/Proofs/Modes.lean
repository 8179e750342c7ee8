import LoxLexer.Proofs.Cursor
/-! Errors without lexemes. A machine with three modes reads a source one character at a time; what it
cannot place in code, and whether it ends in a string, are all the errors that a scan reports, and each
of its ways out of a string is a string that the scan has found. -/
namespace LoxLexer

inductive Mode where
  | code | string | comment
  deriving DecidableEq, Repr

structure Reading where
  mode : Mode
  character : Char
  line : Nat
  next : Mode
  deriving DecidableEq, Repr

def isKnown (c : Char) : Bool :=
  c.isAlpha || c.isDigit || ['_', '(', ')', '{', '}', ',', '.', '-', '+', ';', '*', '/', '!', '=', '<', '>',
    '"', ' ', '\t', '\r', '\n'].contains c

namespace Reading

def isStray (r : Reading) : Bool := r.mode == .code && !isKnown r.character

def error (r : Reading) : LexicalError := .unexpectedCharacter r.line r.character

def closes (r : Reading) : Bool := r.mode == .string && r.next == .code

end Reading

namespace Mode

def after : Mode → Char → Mode
  | code, c => if c = '"' then string else code
  | string, c => if c = '"' then code else string
  | comment, c => if c = '\n' then code else comment

/- Two slashes in code are read together; every other character is read alone. -/
def readings : Mode → Nat → Text → List Reading
  | _, _, [] => []
  | code, line, '/' :: '/' :: rest =>
    ⟨code, '/', line, code⟩ :: ⟨code, '/', line, comment⟩ :: readings comment line rest
  | mode, line, c :: rest =>
    ⟨mode, c, line, mode.after c⟩ :: readings (mode.after c) (line + [c].count '\n') rest

def last (mode : Mode) (readings : List Reading) : Mode := readings.foldl (fun _ r => r.next) mode

end Mode

structure Survey where
  strays : List LexicalError
  strings : Nat
  unclosed : Bool
  deriving DecidableEq, Repr

def Survey.read (r : Reading) (s : Survey) : Survey :=
  ⟨if r.isStray then r.error :: s.strays else s.strays, s.strings + (if r.closes then 1 else 0), s.unclosed⟩

namespace Mode

def survey (mode : Mode) (line : Nat) (text : Text) : Survey :=
  let readings := mode.readings line text
  ⟨(readings.filter Reading.isStray).map Reading.error, readings.countP Reading.closes,
    mode.last readings == string⟩

theorem surveyEmpty (mode : Mode) (line : Nat) : mode.survey line [] = ⟨[], 0, mode == string⟩ := by
  simp [survey, readings, last]

theorem readingsStep {mode : Mode} {line : Nat} {c : Char} {rest : Text}
    (alone : mode = code → c = '/' → Halts (· == '/') rest) : mode.readings line (c :: rest) =
      ⟨mode, c, line, mode.after c⟩ :: (mode.after c).readings (line + [c].count '\n') rest := by
  rw [readings]
  rintro more rfl rfl rfl
  have halts := haltsCons.mp (alone rfl rfl)
  simp at halts

theorem readingsText (mode : Mode) (line : Nat) (text : Text) :
    (mode.readings line text).map Reading.character = text := by
  fun_induction readings mode line text with
  | case1 => rfl
  | case2 line rest ih => simp [ih]
  | case3 mode line c rest _ ih => simp [ih]

theorem readingsLines (mode : Mode) (line : Nat) (text : Text) : (mode.readings line text).map Reading.line =
    (List.range text.length).map fun i => line + (text.take i).count '\n' := by
  fun_induction readings mode line text with
  | case1 => rfl
  | case2 line rest ih => simp [ih, List.range_succ_eq_map]
  | case3 mode line c rest _ ih =>
    have behind (i : Nat) : line + [c].count '\n' + (rest.take i).count '\n' =
        line + ((c :: rest).take (i + 1)).count '\n' := by
      simp only [List.take_succ_cons, List.count_cons, List.count_nil]
      omega
    simp only [List.map_cons, ih, List.length_cons, List.range_succ_eq_map, List.map_map, behind]
    rfl

theorem surveyStep {mode : Mode} {line : Nat} {c : Char} {rest : Text}
    (alone : mode = code → c = '/' → Halts (· == '/') rest) : mode.survey line (c :: rest) =
      ((mode.after c).survey (line + [c].count '\n') rest).read ⟨mode, c, line, mode.after c⟩ := by
  simp only [survey, readingsStep alone, Survey.read, last, List.countP_cons, List.foldl_cons, List.filter_cons]
  cases Reading.isStray ⟨mode, c, line, mode.after c⟩ <;> rfl

theorem surveyComment (line : Nat) (rest : Text) :
    code.survey line ('/' :: '/' :: rest) = comment.survey line rest := by
  simp [survey, readings, Reading.isStray, Reading.closes, last, isKnown]

theorem surveyBehindComment (line : Nat) {rest : Text} (halts : Halts (· != '\n') rest) :
    comment.survey line rest = code.survey line rest := by
  cases rest with
  | nil => rw [surveyEmpty, surveyEmpty]; rfl
  | cons c rest =>
    obtain rfl : c = '\n' := by simpa using haltsCons.mp halts
    rw [surveyStep (by simp), surveyStep (by simp)]
    simp [Survey.read, Reading.isStray, Reading.closes, after, isKnown]

structure Keeps (mode : Mode) (c : Char) : Prop where
  stays : mode.after c = mode
  alone : mode = code → c ≠ '/'
  known : mode = code → isKnown c = true

theorem surveyKeeps {mode : Mode} {text : Text} (keeps : ∀ c ∈ text, Keeps mode c) (line : Nat) (rest : Text) :
    mode.survey line (text ++ rest) = mode.survey (line + text.lineFeeds) rest := by
  induction text generalizing line with
  | nil => rfl
  | cons c text ih =>
    obtain ⟨⟨same, alone, known⟩, others⟩ := List.forall_mem_cons.mp keeps
    have quiet : Reading.isStray ⟨mode, c, line, mode⟩ = false := by
      simp only [Reading.isStray, Bool.and_eq_false_imp, beq_iff_eq, Bool.not_eq_false']
      exact known
    have stays : Reading.closes ⟨mode, c, line, mode⟩ = false := by cases mode <;> rfl
    rw [List.cons_append, surveyStep fun code slash => absurd slash (alone code), same, ih others]
    simp only [Survey.read, quiet, stays, Text.lineFeeds]
    simp [List.count_cons, Nat.add_comm, Nat.add_left_comm]

theorem keepsCode {c : Char} (known : isKnown c = true) (notSlash : c ≠ '/') (notQuote : c ≠ '"') :
    Keeps code c := ⟨if_neg notQuote, fun _ => notSlash, fun _ => known⟩

end Mode

theorem markCharacter (c : Char) : (Mark.ofChar? c).isSome = true ↔
    c ∈ ['(', ')', '{', '}', ',', '.', '-', '+', ';', '/', '*', '!', '=', '>', '<'] := by
  have spelt : (Mark.ofChar? c).isSome = true ↔ [c] ∈ Mark.all.map Mark.spelling := by
    simp [Option.isSome_iff_exists, Mark.ofCharExact, Mark.allComplete]
  rw [spelt]
  simp [Mark.all, Mark.spelling]

theorem strayUnknown (c : Char) : isStray c = !isKnown c := by
  refine congrArg not (Bool.eq_iff_iff.mpr ?_)
  simp only [isKnown, isBlank, isWordPart, isWordStart, Bool.or_eq_true, beq_iff_eq, markCharacter,
    List.contains_iff_mem, List.mem_cons, List.not_mem_nil, or_false]
  grind

namespace Piece

def survey (line : Nat) (p : Piece) (s : Survey) : Survey :=
  match p with
  | stray character => { s with strays := .unexpectedCharacter line character :: s.strays }
  | string _ => { s with strings := s.strings + 1 }
  | _ => s

open Mode (Keeps keepsCode surveyKeeps surveyStep surveyComment surveyBehindComment)

theorem partKeeps {c : Char} (part : isWordPart c = true) : Keeps .code c := by
  have known : isKnown c = true := by
    simp only [isWordPart, isWordStart, Bool.or_eq_true, beq_iff_eq] at part
    simp only [isKnown, List.contains_cons, Bool.or_eq_true, beq_iff_eq]
    grind
  refine keepsCode known ?_ ?_
  all_goals
    rintro rfl
    simp [isWordPart, isWordStart] at part

theorem wordKeeps {letters : Text} (shape : IsWord letters) : ∀ c ∈ letters, Keeps .code c :=
  fun c member => partKeeps (wordParts shape c member)

theorem numberKeeps {n : Numeral} (shape : n.WellFormed) : ∀ c ∈ n.text, Keeps .code c := by
  intro c member
  rcases numeralParts shape c member with rfl | digit
  · exact keepsCode (by decide) (by decide) (by decide)
  · exact partKeeps (by simp [isWordPart, digit])

theorem markKeeps {m : Mark} (other : m ≠ .slash) : ∀ c ∈ m.spelling, Keeps .code c := by
  cases m with
  | slash => contradiction
  | bangEqual | equalEqual | greaterEqual | lessEqual =>
    refine List.forall_mem_cons.mpr ⟨?_, List.forall_mem_singleton.mpr ?_⟩
    all_goals exact keepsCode (by decide) (by decide) (by decide)
  | _ => exact List.forall_mem_singleton.mpr (keepsCode (by decide) (by decide) (by decide))

theorem whiteKeeps {c : Char} (white : isBlank c = true ∨ c = '\n') : Keeps .code c := by
  simp only [isBlank, Bool.or_eq_true, beq_iff_eq] at white
  rcases white with ((rfl | rfl) | rfl) | rfl <;> exact keepsCode (by decide) (by decide) (by decide)

theorem insideKeeps {mode : Mode} {stop : Char} {body : Text} (other : mode ≠ .code)
    (stays : ∀ c, c ≠ stop → mode.after c = mode) (inside : stop ∉ body) : ∀ c ∈ body, Keeps mode c := by
  intro c member
  have different : c ≠ stop := fun same => inside (same ▸ member)
  exact ⟨stays c different, fun code => absurd code other, fun code => absurd code other⟩

theorem stringKeeps {body : Text} (inside : '"' ∉ body) : ∀ c ∈ body, Keeps .string c :=
  insideKeeps (by decide) (fun _ different => if_neg different) inside

theorem commentKeeps {body : Text} (inside : '\n' ∉ body) : ∀ c ∈ body, Keeps .comment c :=
  insideKeeps (by decide) (fun _ different => if_neg different) inside

theorem surveyQuote (line : Nat) (rest : Text) :
    Mode.code.survey line ('"' :: rest) = Mode.string.survey line rest := by
  rw [surveyStep (by simp)]
  simp [Survey.read, Reading.isStray, Reading.closes, Mode.after, isKnown]

theorem surveyPiece {p : Piece} {rest : Text} (stands : p.Stands rest) (closed : ∀ body, p ≠ unclosed body)
    (line : Nat) : Mode.code.survey line (p.text ++ rest) =
      p.survey line (Mode.code.survey (line + p.text.lineFeeds) rest) := by
  obtain ⟨shape, ends⟩ := stands
  cases p with
  | unclosed body => exact absurd rfl (closed body)
  | mark m =>
    by_cases slash : m = .slash
    · subst slash
      refine (surveyStep fun _ _ => ends.2 rfl).trans ?_
      simp [Survey.read, Reading.isStray, Reading.closes, Mode.after, isKnown, survey, Piece.text, Text.lineFeeds,
        Mark.spelling]
    · exact surveyKeeps (markKeeps slash) line rest
  | word letters => exact surveyKeeps (wordKeeps shape) line rest
  | number n => exact surveyKeeps (numberKeeps shape) line rest
  | blank c => exact surveyKeeps (List.forall_mem_singleton.mpr (whiteKeeps (.inl shape))) line rest
  | lineFeed => exact surveyKeeps (List.forall_mem_singleton.mpr (whiteKeeps (.inr rfl))) line rest
  | string body =>
    have text : (string body).text ++ rest = '"' :: (body ++ '"' :: rest) := by simp [Piece.text]
    have feeds : (string body).text.lineFeeds = body.lineFeeds := by simp [Piece.text, Text.lineFeeds]
    rw [text, feeds, surveyQuote, surveyKeeps (stringKeeps shape), surveyStep (by simp)]
    simp [Survey.read, Reading.isStray, Reading.closes, Mode.after, survey]
  | comment body =>
    have feeds : (comment body).text.lineFeeds = body.lineFeeds := by simp [Piece.text, Text.lineFeeds]
    have halts : Halts (· != '\n') rest := ends
    have text : (comment body).text ++ rest = '/' :: '/' :: (body ++ rest) := rfl
    rw [text, feeds, surveyComment, surveyKeeps (commentKeeps shape), surveyBehindComment _ halts]
    rfl
  | stray c =>
    have stray : isStray c = true := shape
    have known : isKnown c = false := by simpa [strayUnknown] using stray
    have notSlash : c ≠ '/' := by rintro rfl; contradiction
    have notQuote : c ≠ '"' := by rintro rfl; contradiction
    refine (surveyStep fun _ slash => absurd slash notSlash).trans ?_
    simp [Survey.read, Reading.isStray, Reading.error, Reading.closes, Mode.after, survey, Piece.text,
      Text.lineFeeds, known, notQuote]

end Piece

structure Told (p : Position) (source : Text) (s : Survey) : Prop where
  errors : ∃ start, (p.findings (Piece.cut source)).filterMap Finding.error? = s.strays ++
    if s.unclosed then [.unterminatedString (p.after source).line start] else []
  strings : ((p.findings (Piece.cut source)).filterMap Finding.token?).countP (fun t => t.kind == .string) =
    s.strings

theorem wordKind (word : Text) : Kind.ofWord word ≠ .string := by
  unfold Kind.ofWord
  cases Keyword.ofText? word <;> simp

theorem toldPiece {p : Position} {piece : Piece} {rest : Text} {s : Survey} (stands : piece.Stands rest)
    (closed : ∀ body, piece ≠ .unclosed body) (told : Told (p.after piece.text) rest s) :
    Told p (piece.text ++ rest) (piece.survey p.line s) := by
  obtain ⟨⟨start, errors⟩, strings⟩ := told
  rw [← Position.afterAppend] at errors
  constructor
  · refine ⟨start, ?_⟩
    rw [Piece.cutStands stands, Position.findingsCons, List.filterMap_append, errors]
    cases piece with
    | unclosed body => exact absurd rfl (closed body)
    | _ => rfl
  · rw [Piece.cutStands stands, Position.findingsCons, List.filterMap_append, List.countP_append, strings]
    cases piece with
    | word letters => simp [Placed.finding?, Piece.token?, Piece.kind?, Finding.token?, wordKind, Piece.survey]
    | unclosed body => exact absurd rfl (closed body)
    | string body =>
      simp [Placed.finding?, Piece.token?, Piece.kind?, Finding.token?, Piece.survey, Nat.add_comm]
    | _ => simp [Placed.finding?, Piece.token?, Piece.kind?, Finding.token?, Piece.survey]

theorem toldUnclosed (p : Position) {body : Text} (stands : (Piece.unclosed body).Stands []) :
    Told p ((Piece.unclosed body).text ++ []) (Mode.code.survey p.line ((Piece.unclosed body).text ++ [])) := by
  have text : (Piece.unclosed body).text ++ [] = '"' :: (body ++ []) := rfl
  have survey : Mode.code.survey p.line ((Piece.unclosed body).text ++ []) = ⟨[], 0, true⟩ := by
    rw [text, Piece.surveyQuote, Mode.surveyKeeps (Piece.stringKeeps stands.wellFormed), Mode.surveyEmpty]
    rfl
  rw [survey]
  constructor
  · refine ⟨(Piece.unclosed body).text, ?_⟩
    rw [Piece.cutStands stands, Piece.cutEmpty, List.append_nil]
    rfl
  · rw [Piece.cutStands stands, Piece.cutEmpty]
    rfl

theorem toldBySurvey (source : Text) (p : Position) : Told p source (Mode.code.survey p.line source) := by
  induction source using Piece.pieceInduction generalizing p with
  | nothing =>
    rw [Mode.surveyEmpty]
    exact ⟨⟨[], by rw [Piece.cutEmpty]; rfl⟩, by rw [Piece.cutEmpty]; rfl⟩
  | piece piece rest stands ih =>
    by_cases last : ∃ body, piece = .unclosed body
    · obtain ⟨body, rfl⟩ := last
      obtain rfl : rest = [] := stands.ends
      exact toldUnclosed p stands
    · have closed : ∀ body, piece ≠ .unclosed body := fun body same => last ⟨body, same⟩
      rw [Piece.surveyPiece stands closed]
      exact toldPiece stands closed (ih (p.after piece.text))

theorem Scanner.errorsOfModes (source : Text) :
    let readings := Mode.code.readings 1 source
    let strays := readings.filter Reading.isStray
    let ending := Mode.code.last readings
    readings.map Reading.character = source ∧
    readings.map Reading.line = (List.range source.length).map (fun i => 1 + (source.take i).count '\n') ∧
    ∃ s start, (fresh source).scanTokens = some s ∧
      s.errors = strays.map (fun r => .unexpectedCharacter r.line r.character) ++
        (if ending = .string then [.unterminatedString (1 + source.count '\n') start] else []) ∧
      s.diagnostics = strays.map (fun r => ⟨r.line, "Unexpected character.".toList⟩) ++
        (if ending = .string then [⟨1 + source.count '\n', "Unterminated string.".toList⟩] else []) ∧
      s.tokens.countP (fun t => t.kind == .string) = readings.countP Reading.closes := by
  obtain ⟨⟨start, told⟩, strings⟩ := toldBySurvey source Position.first
  obtain ⟨s, answered, tokens, errors, diagnostics⟩ := scanAnswers source
  simp only [Mode.survey, beq_iff_eq] at told
  refine ⟨Mode.readingsText _ _ _, Mode.readingsLines _ _ _, s, start, answered, errors.trans told, ?_, ?_⟩
  · have reported := congrArg (List.map LexicalError.diagnostic) told
    rw [List.map_append, List.map_map, apply_ite (List.map LexicalError.diagnostic)] at reported
    exact diagnostics.trans reported
  · rw [tokens, Scan.tokens, List.countP_append]
    exact strings

end LoxLexer
