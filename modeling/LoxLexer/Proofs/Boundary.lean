import LoxLexer.Piece
import Mathlib.Data.List.TakeWhile
/-! Where a piece ends. A piece stands before a rest if it is shaped like its class and nothing in
front of the rest would have been read into it; these are exactly the pieces that cutting takes. All
that is said of a cut elsewhere goes through this relation and never through the readers. -/
namespace LoxLexer

def Halts (keep : Char → Bool) (rest : Text) : Prop := ∀ c ∈ rest.head?, keep c = false

theorem haltsEmpty (keep : Char → Bool) : Halts keep [] := by
  intro c member
  simp at member

theorem haltsCons {keep : Char → Bool} {c : Char} {rest : Text} :
    Halts keep (c :: rest) ↔ keep c = false := by
  simp [Halts]

theorem haltsPrefix {keep : Char → Bool} {front back : Text} (halts : Halts keep (front ++ back)) :
    Halts keep front := by
  cases front with
  | nil => exact haltsEmpty keep
  | cons c front => exact haltsCons.mpr (haltsCons.mp halts)

theorem haltsAppend {keep : Char → Bool} {front back : Text} (halts : Halts keep front)
    (behind : Halts keep back) : Halts keep (front ++ back) := by
  cases front with
  | nil => exact behind
  | cons c front => exact haltsCons.mpr (haltsCons.mp halts)

theorem haltsDropWhile (keep : Char → Bool) (text : Text) : Halts keep (text.dropWhile keep) := by
  intro c member
  have stop := List.head?_dropWhile_not keep text
  rw [Option.mem_def.mp member] at stop
  simpa using stop

theorem spanHalts {keep : Char → Bool} {body rest : Text} (inside : ∀ c ∈ body, keep c = true)
    (halts : Halts keep rest) :
    (body ++ rest).takeWhile keep = body ∧ (body ++ rest).dropWhile keep = rest := by
  induction body with
  | nil =>
    cases rest with
    | nil => exact ⟨rfl, rfl⟩
    | cons c rest => simp [haltsCons.mp halts]
  | cons c body ih =>
    obtain ⟨head, tail⟩ := List.forall_mem_cons.mp inside
    simpa [head] using ih tail

theorem insideTakeWhile (keep : Char → Bool) (text : Text) : ∀ c ∈ text.takeWhile keep, keep c = true :=
  List.all_eq_true.mp List.all_takeWhile

theorem insideOther {other : Char} {body : Text} : (∀ c ∈ body, (c != other) = true) ↔ other ∉ body := by
  simp only [bne_iff_ne, ne_eq, List.forall_mem_ne']

theorem insideFree {keep : Char → Bool} {stop : Char} {text : Text} (inside : ∀ c ∈ text, keep c = true)
    (other : keep stop = false) : stop ∉ text := by
  intro member
  have kept := inside stop member
  rw [other] at kept
  contradiction

theorem haltsAt {mark : Char} {rest : Text} (never : ∀ more, rest ≠ mark :: more) :
    Halts (· == mark) rest := by
  cases rest with
  | nil => exact haltsEmpty _
  | cons c more =>
    have different : c ≠ mark := fun same => never more (same ▸ rfl)
    exact haltsCons.mpr (beq_eq_false_iff_ne.mpr different)

def IsWord : Text → Prop
  | [] => False
  | c :: cs => isWordStart c = true ∧ ∀ d ∈ cs, isWordPart d = true

theorem wordParts {word : Text} (shape : IsWord word) : ∀ c ∈ word, isWordPart c = true := by
  cases word with
  | nil => exact absurd shape id
  | cons c cs => exact List.forall_mem_cons.mpr ⟨by simp [isWordPart, shape.1], shape.2⟩

theorem numeralParts {n : Numeral} (shape : n.WellFormed) : ∀ c ∈ n.text, c = '.' ∨ c.isDigit = true := by
  obtain ⟨_, whole, fraction⟩ := shape
  obtain ⟨digits, behind⟩ := n
  intro c member
  cases behind with
  | nil => exact .inr (whole c member)
  | cons d more =>
    rcases List.mem_append.mp member with left | right
    · exact .inr (whole c left)
    · exact (List.mem_cons.mp right).imp id (fraction c)

def isStray (c : Char) : Bool :=
  !(c == '\n' || isBlank c || c == '"' || isWordPart c || (Mark.ofChar? c).isSome)

namespace Piece

def WellFormed : Piece → Prop
  | word letters => IsWord letters
  | number numeral => numeral.WellFormed
  | string body => '"' ∉ body
  | blank space => isBlank space = true
  | comment body => '\n' ∉ body
  | stray character => isStray character = true
  | unclosed body => '"' ∉ body
  | mark _ | lineFeed => True

def Ends : Piece → Text → Prop
  | mark m, rest => (m.withEqual?.isSome → Halts (· == '=') rest) ∧ (m = .slash → Halts (· == '/') rest)
  | word _, rest => Halts isWordPart rest
  | number numeral, rest => Halts Char.isDigit rest ∧
      (numeral.fraction = [] → ∀ d more, rest = '.' :: d :: more → d.isDigit = false)
  | comment _, rest => Halts (· != '\n') rest
  | unclosed _, rest => rest = []
  | string _, _ | blank _, _ | lineFeed, _ | stray _, _ => True

structure Stands (p : Piece) (rest : Text) : Prop where
  wellFormed : p.WellFormed
  ends : p.Ends rest

theorem textNonempty {p : Piece} (shape : p.WellFormed) : ∃ c cs, p.text = c :: cs := by
  cases p with
  | mark m => cases m <;> exact ⟨_, _, rfl⟩
  | word letters =>
    cases letters with
    | nil => exact absurd shape id
    | cons c cs => exact ⟨c, cs, rfl⟩
  | number numeral =>
    obtain ⟨whole, fraction⟩ := numeral
    cases whole with
    | nil => exact absurd rfl shape.whole
    | cons c cs => cases fraction <;> exact ⟨_, _, rfl⟩
  | _ => exact ⟨_, _, rfl⟩

theorem endsEmpty (p : Piece) : p.Ends [] := by
  cases p with
  | mark m => exact ⟨fun _ => haltsEmpty _, fun _ => haltsEmpty _⟩
  | word letters => exact haltsEmpty _
  | number numeral => exact ⟨haltsEmpty _, by simp⟩
  | comment body => exact haltsEmpty _
  | unclosed body => rfl
  | _ => trivial

theorem endsPrefix {p : Piece} {front back : Text} (ends : p.Ends (front ++ back)) : p.Ends front := by
  cases p with
  | mark m => exact ⟨fun grows => haltsPrefix (ends.1 grows), fun slash => haltsPrefix (ends.2 slash)⟩
  | word letters => exact haltsPrefix ends
  | number numeral =>
    refine ⟨haltsPrefix ends.1, fun whole d more same => ?_⟩
    exact ends.2 whole d (more ++ back) (by rw [same]; rfl)
  | comment body => exact haltsPrefix ends
  | unclosed body => exact (List.append_eq_nil_iff.mp ends).1
  | _ => trivial

theorem standsPrefix {p : Piece} {front back : Text} (stands : Stands p (front ++ back)) :
    Stands p front := ⟨stands.wellFormed, endsPrefix stands.ends⟩

theorem quotationStands (cs : Text) : Stands (quotation cs).1 (quotation cs).2 := by
  unfold quotation
  split
  · rename_i all
    have inside : ∀ c ∈ cs, (c != '"') = true := List.dropWhile_eq_nil_iff.mp all
    exact ⟨insideOther.mp inside, rfl⟩
  · exact ⟨insideOther.mp (insideTakeWhile _ cs), trivial⟩

theorem numeralStands (c : Char) (cs : Text) (digit : c.isDigit = true) :
    Stands (numeral c cs).1 (numeral c cs).2 := by
  have digits : ∀ d ∈ c :: cs.takeWhile Char.isDigit, d.isDigit = true :=
    List.forall_mem_cons.mpr ⟨digit, insideTakeWhile _ cs⟩
  have halts := haltsDropWhile Char.isDigit cs
  unfold numeral
  dsimp only
  split
  · rename_i d rest left
    split
    · rename_i more
      have fraction : ∀ e ∈ d :: rest.takeWhile Char.isDigit, e.isDigit = true :=
        List.forall_mem_cons.mpr ⟨more, insideTakeWhile _ rest⟩
      exact ⟨⟨by simp, digits, fraction⟩, haltsDropWhile _ rest, by simp⟩
    · rename_i stop
      refine ⟨⟨by simp, digits, by simp⟩, left ▸ halts, fun _ e more same => ?_⟩
      cases same
      simpa using stop
  · rename_i other
    exact ⟨⟨by simp, digits, by simp⟩, halts, fun _ d more same => absurd same (other d more)⟩

theorem strayOf {c : Char} (notFeed : c ≠ '\n') (notBlank : ¬ isBlank c = true) (notQuote : c ≠ '"')
    (notPart : ¬ isWordPart c = true) (notMark : Mark.ofChar? c = none) : isStray c = true := by
  simp [isStray, notFeed, notBlank, notQuote, notPart, notMark]

theorem longerIsPlain {short long : Mark} (grows : short.withEqual? = some long) :
    long.withEqual? = none ∧ long ≠ .slash := by
  cases short <;> simp [Mark.withEqual?] at grows <;> subst grows <;> decide

theorem symbolStands {c : Char} {cs : Text} (strayIfNone : Mark.ofChar? c = none → isStray c = true)
    (noComment : c = '/' → Halts (· == '/') cs) : Stands (symbol c cs).1 (symbol c cs).2 := by
  unfold symbol
  split
  · rename_i none
    exact ⟨strayIfNone none, trivial⟩
  · rename_i short found
    have spelt := Mark.ofCharExact.mp found
    split
    · rename_i rest long grows
      obtain ⟨short, notSlash⟩ := longerIsPlain grows
      have noLonger : ¬ long.withEqual?.isSome = true := by simp [short]
      exact ⟨trivial, fun grows => absurd grows noLonger, fun slash => absurd slash notSlash⟩
    · rename_i other
      refine ⟨trivial, fun grows => ?_, fun slash => ?_⟩
      · obtain ⟨long, grows⟩ := Option.isSome_iff_exists.mp grows
        exact haltsAt fun more same => other more long same grows
      · subst slash
        exact noComment (by simpa [Mark.spelling] using spelt.symm)

theorem firstStands (c : Char) (cs : Text) : Stands (first c cs).1 (first c cs).2 := by
  unfold first
  split
  · exact ⟨trivial, trivial⟩
  split
  · rename_i blank
    exact ⟨blank, trivial⟩
  split
  · exact quotationStands cs
  split
  · rename_i digit
    exact numeralStands c cs digit
  split
  · rename_i start
    exact ⟨⟨start, insideTakeWhile _ cs⟩, haltsDropWhile _ cs⟩
  · rename_i notFeed notBlank notQuote notDigit notStart
    split
    · exact ⟨insideOther.mp (insideTakeWhile _ _), haltsDropWhile _ _⟩
    · rename_i other
      refine symbolStands (strayOf notFeed notBlank notQuote (by simp [isWordPart, *])) ?_
      exact fun slash => haltsAt fun more same => other more slash same

theorem classPlain {keep : Char → Bool} {c : Char} (member : keep c = true)
    (none : ['\n', ' ', '\t', '\r', '"'].all (fun d => !keep d) = true) :
    c ≠ '\n' ∧ ¬ isBlank c = true ∧ c ≠ '"' := by
  have apart : ∀ d ∈ ['\n', ' ', '\t', '\r', '"'], c ≠ d := by
    rintro d listed rfl
    have other := List.all_eq_true.mp none c listed
    simp [member] at other
  simp only [List.forall_mem_cons] at apart
  obtain ⟨notFeed, notSpace, notTab, notReturn, notQuote, _⟩ := apart
  have notBlank : ¬ isBlank c = true := by simp [isBlank, notSpace, notTab, notReturn]
  exact ⟨notFeed, notBlank, notQuote⟩

theorem digitPlain {c : Char} (digit : c.isDigit = true) :
    c ≠ '\n' ∧ ¬ isBlank c = true ∧ c ≠ '"' := classPlain digit (by decide)

theorem wordStartNoDigit {c : Char} (start : isWordStart c = true) : ¬ c.isDigit = true := by
  intro digit
  unfold isWordStart Char.isAlpha Char.isUpper Char.isLower at start
  unfold Char.isDigit at digit
  simp only [Bool.or_eq_true, Bool.and_eq_true, decide_eq_true_eq, beq_iff_eq, ge_iff_le,
    UInt32.le_iff_toNat_le] at start digit
  rcases start with (⟨low, _⟩ | ⟨low, _⟩) | rfl
  · simp at low digit
    omega
  · simp at low digit
    omega
  · simp at digit

theorem wordStartPlain {c : Char} (start : isWordStart c = true) :
    c ≠ '\n' ∧ ¬ isBlank c = true ∧ c ≠ '"' ∧ ¬ c.isDigit = true := by
  obtain ⟨notFeed, notBlank, notQuote⟩ := classPlain start (by decide)
  exact ⟨notFeed, notBlank, notQuote, wordStartNoDigit start⟩

theorem markPlain {m : Mark} {c : Char} (spelt : m.spelling = [c]) :
    c ≠ '\n' ∧ ¬ isBlank c = true ∧ c ≠ '"' ∧ ¬ c.isDigit = true ∧ ¬ isWordStart c = true := by
  cases m <;> simp only [Mark.spelling, List.cons.injEq, and_true, List.cons_ne_nil, and_false] at spelt <;>
    subst spelt <;> decide

theorem markShape (m : Mark) : (∃ c, m.spelling = [c]) ∨
    ∃ (short : Mark) (c : Char), short.spelling = [c] ∧ short.withEqual? = some m ∧ short ≠ .slash := by
  cases m
  case bangEqual => exact .inr ⟨.bang, _, rfl, rfl, by decide⟩
  case equalEqual => exact .inr ⟨.equal, _, rfl, rfl, by decide⟩
  case greaterEqual => exact .inr ⟨.greater, _, rfl, rfl, by decide⟩
  case lessEqual => exact .inr ⟨.less, _, rfl, rfl, by decide⟩
  all_goals exact .inl ⟨_, rfl⟩

theorem firstSymbol {m : Mark} {c : Char} {cs : Text} (spelt : m.spelling = [c])
    (noComment : m = .slash → Halts (· == '/') cs) : first c cs = symbol c cs := by
  obtain ⟨notFeed, notBlank, notQuote, notDigit, notStart⟩ := markPlain spelt
  unfold first
  rw [if_neg notFeed, if_neg notBlank, if_neg notQuote, if_neg notDigit, if_neg notStart]
  split
  · rename_i rest
    have slash : m = .slash := Mark.spellingInjective spelt
    have halts := haltsCons.mp (noComment slash)
    simp at halts
  · rfl

theorem firstMark {m : Mark} {rest : Text} (ends : (mark m).Ends rest) :
    ∃ c cs, m.spelling ++ rest = c :: cs ∧ first c cs = (mark m, rest) := by
  rcases markShape m with ⟨c, spelt⟩ | ⟨short, c, spelt, grows, notSlash⟩
  · refine ⟨c, rest, by rw [spelt]; rfl, ?_⟩
    rw [firstSymbol spelt ends.2, symbol, Mark.ofCharExact.mpr spelt]
    dsimp only
    split
    · rename_i long grows
      have halts := haltsCons.mp (ends.1 (by simp [grows]))
      simp at halts
    · rfl
  · refine ⟨c, '=' :: rest, by rw [Mark.withEqualSpelling grows, spelt]; rfl, ?_⟩
    rw [firstSymbol spelt (fun slash => absurd slash notSlash), symbol, Mark.ofCharExact.mpr spelt]
    simp only [grows]

theorem firstWord {letters rest : Text} (stands : (word letters).Stands rest) :
    ∃ c cs, letters ++ rest = c :: cs ∧ first c cs = (word letters, rest) := by
  obtain ⟨shape, ends⟩ := stands
  cases letters with
  | nil => exact absurd shape id
  | cons c cs =>
    obtain ⟨start, inside⟩ := shape
    obtain ⟨notFeed, notBlank, notQuote, notDigit⟩ := wordStartPlain start
    obtain ⟨taken, left⟩ := spanHalts inside ends
    have read : first c (cs ++ rest) = (word (c :: cs), rest) := by
      unfold first
      rw [if_neg notFeed, if_neg notBlank, if_neg notQuote, if_neg notDigit, if_pos start, taken, left]
    exact ⟨c, cs ++ rest, rfl, read⟩

theorem numeralExact {n : Numeral} {rest : Text} (stands : (number n).Stands rest) :
    ∃ c cs, n.text ++ rest = c :: cs ∧ c.isDigit = true ∧ numeral c cs = (number n, rest) := by
  obtain ⟨⟨some, whole, digits⟩, halts, point⟩ := stands
  obtain ⟨body, fraction⟩ := n
  cases body with
  | nil => exact absurd rfl some
  | cons c cs =>
    obtain ⟨digit, inside⟩ := List.forall_mem_cons.mp whole
    cases fraction with
    | nil =>
      obtain ⟨taken, left⟩ := spanHalts inside halts
      refine ⟨c, cs ++ rest, rfl, digit, ?_⟩
      unfold numeral
      simp only [taken, left]
      split
      · rename_i d more
        rw [if_neg (by simpa using point rfl d more rfl)]
      · rfl
    | cons d more =>
      obtain ⟨head, tail⟩ := List.forall_mem_cons.mp digits
      have stop : Halts Char.isDigit ('.' :: d :: (more ++ rest)) := haltsCons.mpr rfl
      obtain ⟨taken, left⟩ := spanHalts inside stop
      obtain ⟨takenMore, leftMore⟩ := spanHalts tail halts
      refine ⟨c, cs ++ '.' :: d :: (more ++ rest), by simp [Numeral.text], digit, ?_⟩
      unfold numeral
      simp only [taken, left, head, if_true, takenMore, leftMore]

theorem firstNumber {n : Numeral} {rest : Text} (stands : (number n).Stands rest) :
    ∃ c cs, n.text ++ rest = c :: cs ∧ first c cs = (number n, rest) := by
  obtain ⟨c, cs, same, digit, read⟩ := numeralExact stands
  obtain ⟨notFeed, notBlank, notQuote⟩ := digitPlain digit
  have started : first c cs = numeral c cs := by
    unfold first
    rw [if_neg notFeed, if_neg notBlank, if_neg notQuote, if_pos digit]
  exact ⟨c, cs, same, started.trans read⟩

theorem firstQuotation (cs : Text) : first '"' cs = quotation cs := by
  simp [first, isBlank]

theorem strayPlain {c : Char} (shape : isStray c = true) : c ≠ '\n' ∧ ¬ isBlank c = true ∧ c ≠ '"' ∧
    ¬ c.isDigit = true ∧ ¬ isWordStart c = true ∧ Mark.ofChar? c = none := by
  simpa [isStray, isWordPart, and_assoc] using shape

theorem firstStray {c : Char} {rest : Text} (shape : isStray c = true) : first c rest = (stray c, rest) := by
  obtain ⟨notFeed, notBlank, notQuote, notDigit, notStart, notMark⟩ := strayPlain shape
  unfold first
  rw [if_neg notFeed, if_neg notBlank, if_neg notQuote, if_neg notDigit, if_neg notStart]
  split
  · simp [Mark.ofCharExact.mpr (rfl : Mark.slash.spelling = ['/'])] at notMark
  · simp only [symbol, notMark]

theorem firstExact {p : Piece} {rest : Text} (stands : p.Stands rest) :
    ∃ c cs, p.text ++ rest = c :: cs ∧ first c cs = (p, rest) := by
  have shape := stands.wellFormed
  have ends := stands.ends
  cases p with
  | mark m => exact firstMark ends
  | word letters => exact firstWord stands
  | number n => exact firstNumber stands
  | string body =>
    have halts : Halts (· != '"') ('"' :: rest) := haltsCons.mpr rfl
    obtain ⟨taken, left⟩ := spanHalts (insideOther.mpr shape) halts
    have read : first '"' (body ++ '"' :: rest) = (string body, rest) := by
      rw [firstQuotation]
      simp only [quotation, taken, left]
    exact ⟨'"', body ++ '"' :: rest, by simp [text], read⟩
  | blank space =>
    have isSpace : isBlank space = true := shape
    have notFeed : space ≠ '\n' := by
      rintro rfl
      contradiction
    have read : first space rest = (blank space, rest) := by
      unfold first
      rw [if_neg notFeed, if_pos isSpace]
    exact ⟨space, rest, rfl, read⟩
  | lineFeed => exact ⟨'\n', rest, rfl, rfl⟩
  | comment body =>
    obtain ⟨taken, left⟩ := spanHalts (insideOther.mpr shape) ends
    have read : first '/' ('/' :: (body ++ rest)) = (comment body, rest) := by
      simp [first, isBlank, isWordStart, taken, left]
    exact ⟨'/', '/' :: (body ++ rest), rfl, read⟩
  | stray c => exact ⟨c, rest, rfl, firstStray shape⟩
  | unclosed body =>
    subst ends
    have all : body.dropWhile (· != '"') = [] := List.dropWhile_eq_nil_iff.mpr (insideOther.mpr shape)
    have read : first '"' body = (unclosed body, []) := by
      rw [firstQuotation]
      simp only [quotation, all]
    exact ⟨'"', body, by simp [text], read⟩

theorem cutStands {p : Piece} {rest : Text} (stands : p.Stands rest) :
    cut (p.text ++ rest) = p :: cut rest := by
  obtain ⟨c, cs, same, read⟩ := firstExact stands
  rw [same, cutStep, read]

theorem cutAlone {p : Piece} (shape : p.WellFormed) : cut p.text = [p] := by
  have alone := cutStands ⟨shape, endsEmpty p⟩
  rwa [List.append_nil, cutEmpty] at alone

@[elab_as_elim]
theorem pieceInduction {motive : Text → Prop} (nothing : motive [])
    (piece : ∀ (p : Piece) (rest : Text), p.Stands rest → motive rest → motive (p.text ++ rest))
    (source : Text) : motive source := by
  fun_induction cut source with
  | case1 => exact nothing
  | case2 c cs step ih =>
    rw [← firstText c cs]
    exact piece _ _ (firstStands c cs) ih

def EndedBy : Piece → Char → Prop
  | comment _, c => c = '\n'
  | unclosed _, _ => False
  | _, c => isBlank c = true ∨ c = '\n'

theorem whitePlain {c : Char} (white : isBlank c = true ∨ c = '\n') :
    c ≠ '=' ∧ c ≠ '/' ∧ c ≠ '.' ∧ c.isDigit = false ∧ isWordPart c = false := by
  simp only [isBlank, Bool.or_eq_true, beq_iff_eq] at white
  rcases white with ((rfl | rfl) | rfl) | rfl <;> decide

theorem endsBefore {p : Piece} {front back : Text} {c : Char} (ends : p.Ends front) (ended : p.EndedBy c) :
    p.Ends (front ++ c :: back) := by
  cases p with
  | mark m =>
    obtain ⟨notEqual, notSlash, _⟩ := whitePlain ended
    constructor
    · intro grows
      exact haltsAppend (ends.1 grows) (haltsCons.mpr (beq_eq_false_iff_ne.mpr notEqual))
    · intro slash
      exact haltsAppend (ends.2 slash) (haltsCons.mpr (beq_eq_false_iff_ne.mpr notSlash))
  | word letters =>
    obtain ⟨_, _, _, _, notPart⟩ := whitePlain ended
    exact haltsAppend ends (haltsCons.mpr notPart)
  | number n =>
    obtain ⟨_, _, notPoint, notDigit, _⟩ := whitePlain ended
    refine ⟨haltsAppend ends.1 (haltsCons.mpr notDigit), fun whole d more same => ?_⟩
    match front with
    | [] => exact absurd (List.cons.inj same).1 notPoint
    | [_] =>
      obtain ⟨_, next⟩ := List.cons.inj same
      exact (List.cons.inj next).1 ▸ notDigit
    | point :: e :: rest =>
      obtain ⟨rfl, next⟩ := List.cons.inj same
      exact (List.cons.inj next).1 ▸ ends.2 whole e rest rfl
  | comment body =>
    have feed : c = '\n' := ended
    exact haltsAppend ends (haltsCons.mpr (by simp [feed]))
  | unclosed body => exact absurd ended id
  | _ => trivial

theorem standsBefore {p : Piece} {front back : Text} {c : Char} (stands : p.Stands front)
    (ended : p.EndedBy c) : p.Stands (front ++ c :: back) :=
  ⟨stands.wellFormed, endsBefore stands.ends ended⟩

end Piece
end LoxLexer
