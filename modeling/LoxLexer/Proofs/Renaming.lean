import LoxLexer.Proofs.Seam
/-! Words renamed in place. No piece in front of a word and none behind it asks which word it is, so another word
in its place is read there as itself, and all else as before: the same tokens on the same lines, the same errors. -/
namespace LoxLexer

theorem wordHead {word : Text} (shape : IsWord word) : ∃ c cs, word = c :: cs ∧ isWordStart c = true := by
  cases word with
  | nil => exact absurd shape id
  | cons c cs => exact ⟨c, cs, rfl, shape.1⟩

theorem wordSingle {word : Text} (shape : IsWord word) : word.count '\n' = 0 :=
  List.count_eq_zero_of_not_mem (insideFree (wordParts shape) (by decide))

namespace Piece

theorem wordStartBorders {c : Char} (start : isWordStart c = true) :
    borders.map (· c) = [false, false, true, false, true] ∧ c ≠ '.' := by
  have other : ∀ d, isWordStart d = false → c ≠ d := by
    rintro d plain rfl
    rw [start] at plain
    contradiction
  have equal : (c == '=') = false := beq_eq_false_iff_ne.mpr (other '=' (by decide))
  have slash : (c == '/') = false := beq_eq_false_iff_ne.mpr (other '/' (by decide))
  have feed : (c != '\n') = true := bne_iff_ne.mpr (other '\n' (by decide))
  have digit : c.isDigit = false := Bool.eq_false_iff.mpr (wordStartNoDigit start)
  have part : isWordPart c = true := by rw [isWordPart, start, Bool.or_true]
  exact ⟨by simp only [borders, List.map_cons, List.map_nil, equal, slash, part, digit, feed], other '.' (by decide)⟩

theorem wordsExchange {one other : Text} (shape : IsWord one) (shapeToo : IsWord other) (rest : Text) :
    Exchanges (one ++ rest) (other ++ rest) := by
  obtain ⟨c, cs, rfl, start⟩ := wordHead shape
  obtain ⟨d, ds, rfl, startToo⟩ := wordHead shapeToo
  obtain ⟨classes, _⟩ := wordStartBorders start
  obtain ⟨classesToo, notPoint⟩ := wordStartBorders startToo
  exact exchangesAlike (classes.trans classesToo.symm) notPoint _ _

end Piece

namespace Site

def isToken (s : Site) : Bool := s.token?.isSome

theorem wordOfKind {s : Site} {t : Token} (told : s.token? = some t)
    (named : t.kind = .identifier ∨ ∃ k, t.kind = .keyword k) : ∃ before letters,
      s = ⟨before, .word letters⟩ ∧ t = ⟨.ofWord letters, letters, none, 1 + before.count '\n'⟩ := by
  obtain ⟨before, piece⟩ := s
  cases piece with
  | word letters => exact ⟨before, letters, rfl, (Option.some.inj told).symm⟩
  | mark m =>
    obtain rfl : _ = t := Option.some.inj told
    simp at named
  | number n =>
    obtain rfl : _ = t := Option.some.inj told
    simp at named
  | string body =>
    obtain rfl : _ = t := Option.some.inj told
    simp at named
  | _ => contradiction

theorem tokenAt {sites : List Site} {i : Nat} {t : Token} (found : (sites.filterMap token?)[i]? = some t) :
    ∃ front s back, sites = front ++ s :: back ∧ s.token? = some t ∧ (front.filterMap token?).length = i := by
  induction sites generalizing i with
  | nil => simp at found
  | cons head rest ih =>
    cases told : head.token? with
    | none =>
      rw [List.filterMap_cons_none told] at found
      obtain ⟨front, s, back, rfl, seen, place⟩ := ih found
      exact ⟨head :: front, s, back, rfl, seen, by rwa [List.filterMap_cons_none told]⟩
    | some first =>
      rw [List.filterMap_cons_some told] at found
      cases i with
      | zero =>
        obtain rfl : first = t := Option.some.inj found
        exact ⟨[], head, rest, rfl, told, rfl⟩
      | succ i =>
        obtain ⟨front, s, back, rfl, seen, place⟩ := ih found
        exact ⟨head :: front, s, back, rfl, seen, by rw [List.filterMap_cons_some told, List.length_cons, place]⟩

theorem tokenPlace (front back : List Site) {s : Site} {t : Token} (told : s.token? = some t) :
    ((front ++ s :: back).filter isToken)[(front.filterMap token?).length]? = some s := by
  have here : isToken s = true := by rw [isToken, told, Option.isSome_some]
  have many : (front.filterMap token?).length = (front.filter isToken).length := by
    rw [List.length_filterMap_eq_countP, List.countP_eq_length_filter]
    rfl
  rw [many, List.filter_append, List.filter_cons_of_pos here, List.getElem?_append_right (Nat.le_refl _), Nat.sub_self]
  rfl

end Site

namespace Scan

theorem aroundWord {before letters after word : Text} (seam : Piece.Seam before (letters ++ after))
    (stands : (Piece.word letters).Stands after) (shape : IsWord word) :
    (ofText (before ++ (word ++ after))).tokens = (Site.ofText before).filterMap Site.token? ++
      ⟨.ofWord word, word, none, 1 + before.count '\n'⟩ ::
        ((Site.behind (before ++ letters) (Piece.cut after)).filterMap Site.token? ++
          [Token.eof (1 + (before ++ (letters ++ after)).count '\n')]) ∧
    (ofText (before ++ (word ++ after))).errors =
      (Site.ofText before).filterMap (Site.error? (before ++ (letters ++ after))) ++
        (Site.behind (before ++ letters) (Piece.cut after)).filterMap (Site.error? (before ++ (letters ++ after))) := by
  have lines : (before ++ word).count '\n' = (before ++ letters).count '\n' := by
    rw [List.count_append, List.count_append, wordSingle shape, wordSingle stands.wellFormed]
  have last : (before ++ (word ++ after)).count '\n' = (before ++ (letters ++ after)).count '\n' := by
    rw [← List.append_assoc, ← List.append_assoc, List.count_append, lines, ← List.count_append]
  have sites := Site.ofSeam (p := .word word) seam ⟨shape, stands.ends⟩ (Piece.wordsExchange stands.wellFormed shape after)
  have text : (Piece.word word).text = word := rfl
  have told : Site.token? ⟨before, .word word⟩ = some ⟨.ofWord word, word, none, 1 + before.count '\n'⟩ := rfl
  rw [text] at sites
  constructor
  · rw [tokenSites, sites, List.filterMap_append, List.filterMap_cons_some told, last,
      Site.sameLines Site.tokenLines lines, List.append_assoc, List.cons_append]
  · have seen : Site.error? (before ++ (word ++ after)) = Site.error? (before ++ (letters ++ after)) :=
      funext fun s => Site.errorLines last s.piece s.before s.before rfl
    rw [errorSites, sites, seen, List.filterMap_append, List.filterMap_cons_none rfl,
      Site.sameLines (Site.errorLines rfl) lines]

end Scan

namespace Scanner

theorem renamingInPlace (source word : Text) (shape : IsWord word) :
    ∃ s, (fresh source).scanTokens = some s ∧ ∀ (i : Nat) (t : Token), s.tokens[i]? = some t →
      (t.kind = .identifier ∨ ∃ k, t.kind = .keyword k) →
      ∃ before after u, ((Site.ofText source).filter Site.isToken)[i]? = some ⟨before, .word t.lexeme⟩ ∧
        source = before ++ (t.lexeme ++ after) ∧ (fresh (before ++ (word ++ after))).scanTokens = some u ∧
        u.tokens = s.tokens.set i { t with kind := .ofWord word, lexeme := word } ∧
        u.errors = s.errors ∧ u.diagnostics = s.diagnostics := by
  obtain ⟨s, answered, tokens, errors, diagnostics⟩ := scanAnswers source
  refine ⟨s, answered, fun i t found named => ?_⟩
  have lexeme : ((Site.ofText source).filterMap Site.token?)[i]? = some t := by
    rw [tokens, Scan.tokenSites, List.getElem?_append] at found
    split at found
    · exact found
    · have last := List.mem_singleton.mp (List.mem_of_getElem? found)
      subst last
      simp [Token.eof] at named
  obtain ⟨front, site, back, sites, told, rfl⟩ := Site.tokenAt lexeme
  have place := Site.tokenPlace front back told
  rw [← sites] at place
  obtain ⟨before, letters, rfl, rfl⟩ := Site.wordOfKind told named
  obtain ⟨after, text, stands, seam, rfl, _⟩ := Site.seam sites
  obtain ⟨around, aroundErrors⟩ := Scan.aroundWord seam stands stands.wellFormed
  obtain ⟨renamed, renamedErrors⟩ := Scan.aroundWord seam stands shape
  obtain ⟨u, answeredToo, tokensToo, errorsToo, diagnosticsToo⟩ := scanAnswers (before ++ (word ++ after))
  have same : (Scan.ofText (before ++ (word ++ after))).errors = (Scan.ofText source).errors := by
    rw [renamedErrors, ← aroundErrors]
    exact congrArg (fun text => (Scan.ofText text).errors) text.symm
  refine ⟨before, after, u, place, text, answeredToo, ?_, ?_, ?_⟩
  · have own : s.tokens = (Scan.ofText (before ++ (letters ++ after))).tokens := by rw [tokens, text]; rfl
    rw [tokensToo, own, renamed, around, List.set_append_right _ _ (Nat.le_refl _), Nat.sub_self]
    rfl
  · rw [errorsToo, errors, same]
  · rw [diagnosticsToo, diagnostics, Scan.diagnostics, same]
    rfl

theorem keywordRenamedBetweenNeighbours : IsWord "if_2".toList ∧
    ∃ s u, (fresh "1or.x\n\"or".toList).scanTokens = some s ∧ (fresh "1if_2.x\n\"or".toList).scanTokens = some u ∧
      s.tokens[1]? = some ⟨.keyword .orWord, "or".toList, none, 1⟩ ∧
      u.tokens = s.tokens.set 1 ⟨.identifier, "if_2".toList, none, 1⟩ ∧
      u.errors = [.unterminatedString 2 "\"or".toList] := by
  have shape : IsWord "if_2".toList := ⟨by decide, List.all_eq_true.mp (by decide)⟩
  obtain ⟨s, answered, renames⟩ := renamingInPlace "1or.x\n\"or".toList "if_2".toList shape
  obtain ⟨tokens, errors, _⟩ := answerExact answered
  have found : s.tokens[1]? = some ⟨.keyword .orWord, "or".toList, none, 1⟩ := by
    rw [tokens]
    decide +kernel
  obtain ⟨before, after, u, place, text, renamed, tokensToo, errorsToo, _⟩ := renames 1 _ found (.inr ⟨_, rfl⟩)
  have there : ((Site.ofText "1or.x\n\"or".toList).filter Site.isToken)[1]? =
      some ⟨['1'], .word "or".toList⟩ := by decide +kernel
  obtain rfl : ['1'] = before := congrArg Site.before (Option.some.inj (there.symm.trans place))
  have around : ['1'] ++ ("or".toList ++ ".x\n\"or".toList) = ['1'] ++ ("or".toList ++ after) := text
  obtain rfl := List.append_cancel_left (List.append_cancel_left around)
  refine ⟨shape, s, u, answered, renamed, found, tokensToo.trans ?_, errorsToo.trans (errors.trans ?_)⟩
  · rfl
  · decide +kernel

end Scanner
end LoxLexer
