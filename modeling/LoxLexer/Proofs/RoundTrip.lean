import LoxLexer.Proofs.MaximalMunch
/-! Scanning undoes printing. Lexemes written one after another, each before a gap of blanks, line feeds
and comments, are read as they were written; so are those of any scan, put together with blanks. -/
namespace LoxLexer

def IsWhite (c : Char) : Prop := isBlank c = true ∨ c = '\n'

inductive Spacing : Text → Prop where
  | nothing : Spacing []
  | white {c : Char} {rest : Text} (white : IsWhite c) (more : Spacing rest) : Spacing (c :: rest)
  | comment {body rest : Text} (inside : '\n' ∉ body) (more : Spacing rest) :
      Spacing ('/' :: '/' :: body ++ '\n' :: rest)

/- A comment that followed a lexeme at once could make another lexeme of a slash. -/
inductive Gap : Text → Prop where
  | white {c : Char} {rest : Text} (white : IsWhite c) (more : Spacing rest) : Gap (c :: rest)

structure Printed where
  kind : Kind
  lexeme : Text
  gap : Text
  spelt : Spells kind lexeme
  separated : Gap gap

def Printed.text (p : Printed) : Text := p.lexeme ++ p.gap

namespace Piece

theorem cutWhite {c : Char} (white : IsWhite c) (rest : Text) :
    ∃ p : Piece, p.role = .separator ∧ cut (c :: rest) = p :: cut rest := by
  rcases white with blank | rfl
  · have stands : (Piece.blank c).Stands rest := ⟨blank, trivial⟩
    exact ⟨_, rfl, cutStands stands⟩
  · have stands : lineFeed.Stands rest := ⟨trivial, trivial⟩
    exact ⟨_, rfl, cutStands stands⟩

theorem cutSpacing {gap : Text} (spacing : Spacing gap) (rest : Text) :
    ∃ pieces, (∀ p ∈ pieces, p.role = .separator) ∧ cut (gap ++ rest) = pieces ++ cut rest := by
  induction spacing with
  | nothing => exact ⟨[], by simp, rfl⟩
  | @white c more white _ ih =>
    obtain ⟨pieces, separate, cuts⟩ := ih
    obtain ⟨p, role, step⟩ := cutWhite white (more ++ rest)
    exact ⟨p :: pieces, List.forall_mem_cons.mpr ⟨role, separate⟩, by rw [List.cons_append, step, cuts]; rfl⟩
  | @comment body more inside _ ih =>
    obtain ⟨pieces, separate, cuts⟩ := ih
    have stands : (comment body).Stands ('\n' :: (more ++ rest)) := ⟨inside, haltsCons.mpr rfl⟩
    obtain ⟨p, role, step⟩ := cutWhite (.inr rfl) (more ++ rest)
    refine ⟨comment body :: p :: pieces, ?_, ?_⟩
    · exact List.forall_mem_cons.mpr ⟨rfl, List.forall_mem_cons.mpr ⟨role, separate⟩⟩
    · have whole : '/' :: '/' :: body ++ '\n' :: more ++ rest = (comment body).text ++ '\n' :: (more ++ rest) := by
        simp [text]
      rw [whole, cutStands stands, step, cuts]
      rfl

theorem tokenEndedBy {p : Piece} {kind : Kind} {c : Char} (role : p.role = .token kind) (white : IsWhite c) :
    p.EndedBy c := by
  cases p with
  | mark m => exact white
  | word letters => exact white
  | number n => exact white
  | string body => exact white
  | _ => simp [Piece.role] at role

theorem cutPrinted (item : Printed) (rest : Text) :
    ∃ (p : Piece) (pieces : List Piece), p.slice = ⟨.token item.kind, item.lexeme⟩ ∧
      (∀ q ∈ pieces, q.role = .separator) ∧ cut (item.text ++ rest) = p :: pieces ++ cut rest := by
  obtain ⟨kind, lexeme, gap, spelt, separated⟩ := item
  obtain ⟨p, shape, rfl, role⟩ := ofSpelling spelt
  cases separated with
  | @white c more white spacing =>
    obtain ⟨pieces, separate, cuts⟩ := cutSpacing (.white white spacing) rest
    have stands : p.Stands ([] ++ c :: (more ++ rest)) :=
      standsBefore ⟨shape, endsEmpty p⟩ (tokenEndedBy role white)
    have whole : cut (p.text ++ c :: more ++ rest) = p :: pieces ++ cut rest := by
      calc cut (p.text ++ c :: more ++ rest)
          = cut (p.text ++ ([] ++ c :: (more ++ rest))) := by simp
        _ = p :: cut (c :: more ++ rest) := cutStands stands
        _ = p :: pieces ++ cut rest := by rw [cuts]; rfl
    exact ⟨p, pieces, by rw [slice, role], separate, whole⟩

theorem separatorsSilent {pieces : List Piece} (separate : ∀ p ∈ pieces, p.role = .separator) :
    (pieces.map slice).filterMap Slice.token? = [] ∧ (pieces.map slice).filterMap Slice.complaint? = [] := by
  simp only [List.filterMap_map, List.filterMap_eq_nil_iff]
  constructor
  all_goals
    intro p member
    simp [slice, Slice.token?, Slice.complaint?, separate p member]

theorem slicesPrinted (items : List Printed) :
    ((cut (items.flatMap Printed.text)).map slice).filterMap Slice.token? =
      items.map (fun i => (i.kind, i.lexeme)) ∧
    ((cut (items.flatMap Printed.text)).map slice).filterMap Slice.complaint? = [] := by
  induction items with
  | nil => simp [cutEmpty]
  | cons item rest ih =>
    obtain ⟨p, pieces, token, separate, cuts⟩ := cutPrinted item (rest.flatMap Printed.text)
    obtain ⟨noToken, noComplaint⟩ := separatorsSilent separate
    rw [List.flatMap_cons, cuts]
    simp only [List.cons_append, List.map_cons, List.map_append, List.filterMap_cons, List.filterMap_append,
      token, noToken, noComplaint, ih.1, ih.2]
    exact ⟨rfl, rfl⟩

def literalOf (text : Text) : Option Literal := (cut text).head?.bind literal?

theorem literalOfText {p : Piece} (shape : p.WellFormed) : literalOf p.text = p.literal? := by
  rw [literalOf, cutAlone shape]
  rfl

theorem wellFormedCut (source : Text) : ∀ p ∈ cut source, p.WellFormed := by
  induction source using pieceInduction with
  | nothing => simp [cutEmpty]
  | piece p rest stands ih =>
    rw [cutStands stands]
    exact List.forall_mem_cons.mpr ⟨stands.wellFormed, ih⟩

end Piece

namespace Scan

theorem lexemeOrigin {source : Text} {t : Token} (member : t ∈ (ofText source).lexemes) :
    ∃ p : Piece, p.WellFormed ∧ p.content? = some t.content := by
  have content := List.mem_map_of_mem (f := Token.content) member
  rw [contents] at content
  obtain ⟨p, cut, found⟩ := List.mem_filterMap.mp content
  exact ⟨p, Piece.wellFormedCut source p cut, found⟩

theorem originRole {p : Piece} {t : Token} (found : p.content? = some t.content) :
    p.role = .token t.kind ∧ p.text = t.lexeme ∧ p.literal? = t.literal := by
  obtain ⟨kind, lexeme, literal, line⟩ := t
  cases p <;> simp_all [Piece.content?, Piece.kind?, Token.content, Piece.role]

theorem lexemeSpelt {source : Text} {t : Token} (member : t ∈ (ofText source).lexemes) :
    Spells t.kind t.lexeme := by
  obtain ⟨p, shape, found⟩ := lexemeOrigin member
  obtain ⟨role, spelt, _⟩ := originRole found
  have sound : ¬ p.IsFault := by
    cases p <;> simp_all [Piece.role, Piece.IsFault]
  have lexeme := Piece.lexeme shape sound
  rwa [role, spelt] at lexeme

theorem literalExact (source : Text) :
    ∀ t ∈ (ofText source).tokens, t.literal = Piece.literalOf t.lexeme := by
  intro t member
  rcases List.mem_append.mp member with lexeme | last
  · obtain ⟨p, shape, found⟩ := lexemeOrigin lexeme
    obtain ⟨_, spelt, literal⟩ := originRole found
    rw [← spelt, Piece.literalOfText shape, literal]
  · obtain rfl := List.mem_singleton.mp last
    simp [Token.eof, Piece.literalOf, Piece.cutEmpty]

def printed (source : Text) : List Printed :=
  (ofText source).lexemes.attach.map fun t =>
    ⟨t.val.kind, t.val.lexeme, [' '], lexemeSpelt t.property, .white (.inl rfl) .nothing⟩

theorem joinedBlanks (words : List Text) :
    Text.joinWords (words ++ [[]]) = words.flatMap fun word => word ++ [' '] := by
  induction words with
  | nil => rfl
  | cons word rest ih =>
    have more : Text.joinWords (word :: (rest ++ [[]])) = word ++ ' ' :: Text.joinWords (rest ++ [[]]) := by
      cases rest <;> rfl
    rw [List.cons_append, more, ih]
    simp

theorem printedText (source : Text) :
    Text.joinWords ((ofText source).tokens.map Token.lexeme) = (printed source).flatMap Printed.text := by
  have attached := List.attach_map_val (l := (ofText source).lexemes) (f := fun t => t.lexeme ++ [' '])
  calc Text.joinWords ((ofText source).tokens.map Token.lexeme)
      = ((ofText source).lexemes.map Token.lexeme).flatMap (fun word => word ++ [' ']) := by
        rw [tokens, List.map_append, ← joinedBlanks]
        rfl
    _ = ((ofText source).lexemes.map fun t => t.lexeme ++ [' ']).flatten := by
        rw [List.flatMap_map, List.flatMap_def]
    _ = (printed source).flatMap Printed.text := by
        rw [← attached, printed, List.flatMap_map, List.flatMap_def]
        rfl

theorem printedKinds (source : Text) :
    (printed source).map (fun i => (i.kind, i.lexeme)) =
      (ofText source).lexemes.map fun t => (t.kind, t.lexeme) := by
  rw [printed, List.map_map]
  exact List.attach_map_val (f := fun t : Token => (t.kind, t.lexeme))

theorem scanPrinted (items : List Printed) :
    (ofText (items.flatMap Printed.text)).diagnostics = [] ∧
    (ofText (items.flatMap Printed.text)).tokens.map (fun t => (t.kind, t.lexeme)) =
      items.map (fun i => (i.kind, i.lexeme)) ++ [(.eof, [])] := by
  obtain ⟨kinds, silent⟩ := Piece.slicesPrinted items
  constructor
  · exact List.map_eq_nil_iff.mp ((sliceComplaints _).trans silent)
  · rw [tokens, List.map_append, sliceTokens, kinds]
    rfl

theorem contentOfKinds (source : Text) :
    (ofText source).tokens.map Token.content =
      ((ofText source).tokens.map fun t => (t.kind, t.lexeme)).map fun pair =>
        (pair.1, pair.2, Piece.literalOf pair.2) := by
  rw [List.map_map]
  refine List.map_congr_left fun t member => ?_
  rw [Token.content, literalExact source t member]
  rfl

theorem scanRescanned (source : Text) :
    (ofText (Text.joinWords ((ofText source).tokens.map Token.lexeme))).diagnostics = [] ∧
    (ofText (Text.joinWords ((ofText source).tokens.map Token.lexeme))).tokens.map Token.content =
      (ofText source).tokens.map Token.content := by
  obtain ⟨silent, kinds⟩ := scanPrinted (printed source)
  have same : (ofText ((printed source).flatMap Printed.text)).tokens.map (fun t => (t.kind, t.lexeme)) =
      (ofText source).tokens.map fun t => (t.kind, t.lexeme) := by
    rw [kinds, printedKinds, tokens, List.map_append]
    rfl
  rw [printedText]
  exact ⟨silent, by rw [contentOfKinds, same, ← contentOfKinds]⟩

end Scan

theorem Scanner.scanUndoesPrinting :
    (∀ items : List Printed, ∃ s, (fresh (items.flatMap Printed.text)).scanTokens = some s ∧
      s.diagnostics = [] ∧
      s.tokens.map (fun t => (t.kind, t.lexeme)) = items.map (fun i => (i.kind, i.lexeme)) ++ [(.eof, [])]) ∧
    ∀ source : Text, ∃ s again, (fresh source).scanTokens = some s ∧
      (fresh (Text.joinWords (s.tokens.map Token.lexeme))).scanTokens = some again ∧
      again.diagnostics = [] ∧ again.tokens.map Token.content = s.tokens.map Token.content := by
  constructor
  · intro items
    obtain ⟨s, answered, tokens, _, diagnostics⟩ := scanAnswers (items.flatMap Printed.text)
    refine ⟨s, answered, ?_⟩
    rw [tokens, diagnostics]
    exact Scan.scanPrinted items
  · intro source
    obtain ⟨s, answered, tokens, _, _⟩ := scanAnswers source
    obtain ⟨again, rescanned, sameTokens, _, diagnostics⟩ :=
      scanAnswers (Text.joinWords (s.tokens.map Token.lexeme))
    refine ⟨s, again, answered, rescanned, ?_⟩
    rw [diagnostics, sameTokens, tokens]
    exact Scan.scanRescanned source

end LoxLexer
