import LoxLexer.Proofs.LineBreak
import LoxLexer.Proofs.Programs
/-! One source, read whole as a script or line by line at the prompt. A script that is no text has a
line that is none; and as long as no string goes on over a line, a script has the tokens and the
diagnostics of its lines, each of them on the line that it came from. -/
namespace LoxLexer

namespace Prompt

theorem lineBytesCases (line : Bytes) : Front.lineBytes line true = line ∨
    line = Front.lineBytes line true ++ [Part.carriageReturn] := by
  unfold Front.lineBytes
  split
  · rename_i returns
    obtain ⟨front, rfl⟩ : ∃ front, line = front ++ [Part.carriageReturn] :=
      List.getLast?_eq_some_iff.mp (by simpa using returns)
    exact .inr (by rw [List.dropLast_concat])
  · exact .inl rfl

theorem decodeLineBytes (line : Bytes) :
    Utf8.decode line = Utf8.decode (Front.lineBytes line true) ∨
      Utf8.decode line = (Utf8.decode (Front.lineBytes line true)).map fun text => text ++ ['\r'] := by
  rcases lineBytesCases line with same | returns
  · exact .inl (by rw [same])
  · refine .inr ?_
    have decoded := Utf8.decodeReturn (Front.lineBytes line true)
    rwa [← returns] at decoded

theorem readingInvalid {line : Bytes} : .error .notText = reading line ↔ Utf8.decode line = none := by
  unfold reading
  cases Utf8.decode line <;> simp

theorem lineInvalid (line : Bytes) :
    Utf8.decode (Front.lineBytes line true) = none ↔ Utf8.decode line = none := by
  rcases decodeLineBytes line with same | returns
  · rw [same]
  · rw [returns, Option.map_eq_none_iff]

theorem someLineInvalid (bytes : Bytes) :
    Utf8.decode bytes = none ↔ .error .notText ∈ (lines bytes).map reading := by
  induction bytes using lineInduction Part.lineFeed with
  | last line free =>
    rw [linesLast free]
    split
    · rename_i empty
      subst empty
      simp [Utf8.decodeEmpty]
    · rw [List.map_singleton, List.mem_singleton, readingInvalid]
  | line line rest free ih =>
    rw [linesFeed free, List.map_cons, List.mem_cons, readingInvalid, lineInvalid, ← ih, Utf8.decodeFeed]
    cases Utf8.decode line with
    | none => simp
    | some text => simp

def stacked : List Text → List Finding
  | [] => []
  | line :: rest => (Scan.ofText line).findings ++ (stacked rest).map (Finding.down 1)

theorem findingsUnder {line shown : Text} (single : '\n' ∉ line) (terminated : Terminated shown)
    (same : line = shown ∨ line = shown ++ ['\r']) (rest : Text) :
    (Scan.ofText (line ++ '\n' :: rest)).findings =
      (Scan.ofText shown).findings ++ (Scan.ofText rest).findings.map (Finding.down 1) := by
  have findings : (Scan.ofText line).findings = (Scan.ofText shown).findings := by
    rcases same with rfl | rfl
    · rfl
    · exact Position.findingsReturn _ shown (Piece.unclosedAbsent terminated)
  have ended : Terminated line := by
    simpa only [Terminated, Scan.diagnostics, Scan.errors, findings] using terminated
  have feeds : line.lineFeeds = 0 := List.count_eq_zero_of_not_mem single
  rw [Scan.findingsBreak ended, findings, feeds]

theorem shownLine {line : Bytes} {text : Text} (decoded : Utf8.decode line = some text) :
    ∃ shown, Utf8.decode (Front.lineBytes line true) = some shown ∧ (text = shown ∨ text = shown ++ ['\r']) := by
  rcases decodeLineBytes line with same | returns
  · exact ⟨text, same ▸ decoded, .inl rfl⟩
  · rw [returns] at decoded
    obtain ⟨shown, read, rfl⟩ := Option.map_eq_some_iff.mp decoded
    exact ⟨shown, read, .inr rfl⟩

theorem shownLines {bytes : Bytes} {source : Text} (decoded : Utf8.decode bytes = some source) :
    ∃ shown : List Text, (lines bytes).map reading = shown.map .ok ∧ (∀ line ∈ shown, '\n' ∉ line) ∧
      ((∀ line ∈ shown, Terminated line) → (Scan.ofText source).findings = stacked shown) := by
  induction bytes using lineInduction Part.lineFeed generalizing source with
  | last line free =>
    rw [linesLast free]
    split
    · rename_i empty
      rw [empty, Utf8.decodeEmpty] at decoded
      obtain rfl := Option.some.inj decoded
      exact ⟨[], rfl, by simp, fun _ => by simp [stacked, Scan.findingsOf, Piece.cutEmpty]; rfl⟩
    · refine ⟨[source], by simp [reading, decoded], ?_, fun _ => by simp [stacked]⟩
      simpa using Utf8.feedFree free decoded
  | line line rest free ih =>
    rw [Utf8.decodeFeed] at decoded
    obtain ⟨text, readLine, decoded⟩ := Option.bind_eq_some_iff.mp decoded
    obtain ⟨behind, readRest, rfl⟩ := Option.map_eq_some_iff.mp decoded
    obtain ⟨first, readFirst, same⟩ := shownLine readLine
    obtain ⟨others, readings, single, under⟩ := ih readRest
    have textSingle := Utf8.feedFree free readLine
    have firstSingle : '\n' ∉ first := by
      rcases same with rfl | rfl
      · exact textSingle
      · exact fun member => textSingle (List.mem_append_left _ member)
    refine ⟨first :: others, ?_, List.forall_mem_cons.mpr ⟨firstSingle, single⟩, fun terminated => ?_⟩
    · rw [linesFeed free, List.map_cons, List.map_cons, readings, reading, readFirst]
      rfl
    · obtain ⟨firstEnds, othersEnd⟩ := List.forall_mem_cons.mp terminated
      rw [findingsUnder textSingle firstEnds same, under othersEnd, stacked]

theorem stackedPositive (shown : List Text) : ∀ f ∈ stacked shown, 1 ≤ f.line := by
  induction shown with
  | nil => simp [stacked]
  | cons line rest ih =>
    intro f member
    rcases List.mem_append.mp member with here | below
    · exact Scan.findingsPositive line f here
    · obtain ⟨g, _, rfl⟩ := List.mem_map.mp below
      rw [lineDown]
      omega

theorem stackedFlat {β : Type} {view : Finding → Option β} (blind : ∀ f, view (f.down 1) = view f)
    (shown : List Text) :
    (stacked shown).filterMap view = shown.flatMap fun line => (Scan.ofText line).findings.filterMap view := by
  induction shown with
  | nil => rfl
  | cons line rest ih =>
    have below : ((stacked rest).map (Finding.down 1)).filterMap view = (stacked rest).filterMap view := by
      rw [List.filterMap_map]
      exact List.filterMap_congr fun f _ => blind f
    rw [stacked, List.filterMap_append, below, ih, List.flatMap_cons]

theorem stackedLine {shown : List Text} (single : ∀ line ∈ shown, '\n' ∉ line) {i : Nat} {line : Text}
    (there : shown[i]? = some line) :
    (stacked shown).filter (fun f => f.line == i + 1) =
      (Scan.ofText line).findings.map (Finding.down i) := by
  induction shown generalizing i with
  | nil => simp at there
  | cons first rest ih =>
    obtain ⟨firstSingle, others⟩ := List.forall_mem_cons.mp single
    have ones := Scan.findingsOneLine firstSingle
    rw [stacked, List.filter_append]
    cases i with
    | zero =>
      obtain rfl : first = line := by simpa using there
      have here : (Scan.ofText first).findings.filter (fun f => f.line == 0 + 1) =
          (Scan.ofText first).findings := List.filter_eq_self.mpr fun f member => by simp [ones f member]
      have none : (stacked rest).filter (fun f => f.line == 0) = [] := by
        refine List.filter_eq_nil_iff.mpr fun f member => ?_
        have positive := stackedPositive rest f member
        simp only [beq_iff_eq]
        omega
      rw [here, lineFilterDown, none, List.map_nil, List.append_nil, List.map_congr_left fun f _ => downNothing f,
        List.map_id']
    | succ i =>
      have here : (Scan.ofText first).findings.filter (fun f => f.line == i + 1 + 1) = [] :=
        List.filter_eq_nil_iff.mpr fun f member => by simp [ones f member]
      rw [here, lineFilterDown, ih others (by simpa using there), List.nil_append, List.map_map]
      exact List.map_congr_left fun f _ => downTwice i 1 f

end Prompt

namespace Scanner

def ofText (source : Text) : Scanner := (fresh source).scanTokens.getD (fresh source)

theorem ofTextScans (source : Text) : (fresh source).scanTokens = some (ofText source) ∧
    (ofText source).tokens.dropLast = (Scan.ofText source).lexemes ∧
    (ofText source).diagnostics = (Scan.ofText source).diagnostics := by
  obtain ⟨s, answered, tokens, _, diagnostics⟩ := scanAnswers source
  have same : ofText source = s := by rw [ofText, answered, Option.getD_some]
  rw [same]
  exact ⟨answered, by rw [tokens, Scan.tokens, List.dropLast_concat], diagnostics⟩

/- Lines count from one, indices from zero; the closing tokens are left out. -/
structure SplitsInto (whole : Scanner) (parts : List Scanner) : Prop where
  tokens : whole.tokens.dropLast.map Token.content = parts.flatMap fun s => s.tokens.dropLast.map Token.content
  tokensOn : ∀ (i : Nat) (s : Scanner), parts[i]? = some s →
    whole.tokens.dropLast.filter (fun t => t.line == i + 1) = s.tokens.dropLast.map (Token.down i)
  messages : whole.diagnostics.map Diagnostic.message =
    parts.flatMap fun s => s.diagnostics.map Diagnostic.message
  diagnosticsOn : ∀ (i : Nat) (s : Scanner), parts[i]? = some s →
    whole.diagnostics.filter (fun d => d.line == i + 1) = s.diagnostics.map (Diagnostic.down i)

theorem splitsInto {source : Text} {lines : List Text}
    (findings : (Scan.ofText source).findings = Prompt.stacked lines) (single : ∀ line ∈ lines, '\n' ∉ line) :
    SplitsInto (ofText source) (lines.map ofText) where
  tokens := by
    have blind : ∀ f : Finding, (f.down 1).token?.map Token.content = f.token?.map Token.content := by
      intro f
      rw [tokenDown, Option.map_map]
      rfl
    simp only [List.flatMap_map, (ofTextScans _).2.1, Scan.lexemes, findings, List.map_filterMap]
    exact Prompt.stackedFlat blind lines
  tokensOn i s there := by
    obtain ⟨line, listed, rfl⟩ := Option.map_eq_some_iff.mp (List.getElem?_map ▸ there)
    rw [(ofTextScans source).2.1, (ofTextScans line).2.1, Scan.lexemes, viewLine tokenLine, findings,
      Prompt.stackedLine single listed, viewChange (tokenDown i)]
    rfl
  messages := by
    have blind : ∀ f : Finding, (f.down 1).report?.map Diagnostic.message = f.report?.map Diagnostic.message := by
      intro f
      rw [reportDown, Option.map_map]
      rfl
    simp only [List.flatMap_map, (ofTextScans _).2.2, Scan.diagnosticsOf, findings, List.map_filterMap]
    exact Prompt.stackedFlat blind lines
  diagnosticsOn i s there := by
    obtain ⟨line, listed, rfl⟩ := Option.map_eq_some_iff.mp (List.getElem?_map ▸ there)
    rw [(ofTextScans source).2.2, (ofTextScans line).2.2, Scan.diagnosticsOf, Scan.diagnosticsOf, viewLine reportLine,
      findings, Prompt.stackedLine single listed, viewChange (reportDown i)]

end Scanner

namespace Program

theorem scriptInvalid (filter : Filter) (path : Text) (bytes : Bytes) :
    ∃ o, fresh.runScript filter path (.ok bytes) = some o ∧
      (o.fault = some .notText ↔ Utf8.decode bytes = none) := by
  refine ⟨_, runScriptExact fresh rfl path (.ok bytes), ?_⟩
  cases decoded : Utf8.decode bytes with
  | none => simp [andThen, Command.runScript, decoded]
  | some source => simp [andThen, Command.runScript, decoded]

theorem scriptAgreesWithPrompt (filter : Filter) (path : Text) (chunks : List Bytes)
    (stays : ∀ line ∈ Prompt.lines chunks.flatten,
      (Utf8.decode line).map Text.trim ≠ some "exit".toList) :
    (∃ o, fresh.runScript filter path (.ok chunks.flatten) = some o ∧ (o.fault = some .notText ↔
      ∃ n, some (.error .notText) ∈ (Prompt.ofParts (chunks.map .chunk)).results n)) ∧
    ∀ source, Utf8.decode chunks.flatten = some source →
      ∃ (lines : List Text) (whole : Scanner) (parts : List Scanner),
        (Prompt.ofParts (chunks.map .chunk)).all = lines.map .ok ∧
        (Scanner.fresh source).scanTokens = some whole ∧
        (lines.map fun line => (Scanner.fresh line).scanTokens) = parts.map some ∧
        ((∀ s ∈ parts, ∀ d ∈ s.diagnostics, d.message ≠ "Unterminated string.".toList) →
          whole.SplitsInto parts) := by
  have all := Prompt.allLines chunks stays
  constructor
  · obtain ⟨o, ran, fault⟩ := scriptInvalid filter path chunks.flatten
    refine ⟨o, ran, ?_⟩
    rw [fault, Prompt.resultsAll, all]
    exact Prompt.someLineInvalid chunks.flatten
  · intro source decoded
    obtain ⟨shown, readings, single, stacked⟩ := Prompt.shownLines decoded
    refine ⟨shown, Scanner.ofText source, shown.map Scanner.ofText, all.trans readings,
      (Scanner.ofTextScans source).1, ?_, fun ended => ?_⟩
    · rw [List.map_map]
      exact List.map_congr_left fun line _ => (Scanner.ofTextScans line).1
    · have terminated : ∀ line ∈ shown, Terminated line := by
        intro line member
        have told := ended _ (List.mem_map_of_mem member)
        rwa [(Scanner.ofTextScans line).2.2] at told
      exact Scanner.splitsInto (stacked terminated) single

theorem returnedLinesAgree :
    (∀ line ∈ Prompt.lines [[49, 46, 47, 47, 13], [10, 34, 34]].flatten,
      (Utf8.decode line).map Text.trim ≠ some "exit".toList) ∧
    (Prompt.ofParts [.chunk [49, 46, 47, 47, 13], .chunk [10, 34, 34]]).all =
      ["1.//".toList, "\"\"".toList].map .ok ∧
    ∃ whole first second, (Scanner.fresh "1.//\r\n\"\"".toList).scanTokens = some whole ∧
      (Scanner.fresh "1.//".toList).scanTokens = some first ∧
      (Scanner.fresh "\"\"".toList).scanTokens = some second ∧
      whole.SplitsInto [first, second] := by
  have stays : ∀ line ∈ Prompt.lines [[49, 46, 47, 47, 13], [10, 34, 34]].flatten,
      (Utf8.decode line).map Text.trim ≠ some "exit".toList := by decide +kernel
  have read : (Prompt.ofParts [.chunk [49, 46, 47, 47, 13], .chunk [10, 34, 34]]).all =
      ["1.//".toList, "\"\"".toList].map .ok := by decide +kernel
  obtain ⟨lines, whole, parts, all, answered, asked, splits⟩ :=
    (scriptAgreesWithPrompt (Limit.upTo .warn).filter [] [[49, 46, 47, 47, 13], [10, 34, 34]] stays).2
      "1.//\r\n\"\"".toList (by decide +kernel)
  have same : ["1.//".toList, "\"\"".toList] = lines :=
    (List.map_inj_right fun _ _ => Except.ok.inj).mp (read.symm.trans all)
  subst same
  have ended : (["1.//".toList, "\"\"".toList].map Scanner.ofText).map some = parts.map some := by
    rw [← asked, List.map_map]
    exact List.map_congr_left fun line _ => (Scanner.ofTextScans line).1.symm
  obtain rfl := (List.map_inj_right fun _ _ => Option.some.inj).mp ended
  have silent : ∀ line ∈ ["1.//".toList, "\"\"".toList], ∀ d ∈ (Scanner.ofText line).diagnostics,
      d.message ≠ "Unterminated string.".toList := by
    simp only [(Scanner.ofTextScans _).2.2]
    decide +kernel
  exact ⟨stays, read, whole, _, _, answered, (Scanner.ofTextScans _).1, (Scanner.ofTextScans _).1,
    splits (List.forall_mem_map.mpr silent)⟩

end Program
end LoxLexer
