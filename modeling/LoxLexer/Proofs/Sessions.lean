import LoxLexer.Main.PlainSettings
import LoxLexer.Proofs.Programs
import LoxLexer.Proofs.Lines
/-! A session at the prompt. Its lines are those that can be read before the input ends, is left or is no text;
what is written for a line is the dump of that line and a new sign, whatever was entered before it, and a line
that is no text ends the session with all that came before it kept. -/
namespace LoxLexer

namespace Scan

theorem findingsQuiet (findings : List Finding) :
    (findings.flatMap Finding.entries).filter (Entry.passes (Limit.upTo .warn).filter) =
      (findings.filterMap Finding.report?).map .diagnostic := by
  induction findings with
  | nil => rfl
  | cons f rest ih =>
    rw [List.flatMap_cons, List.filter_append, ih]
    cases f <;> rfl

theorem entriesQuiet (source : Text) :
    (ofText source).entries.filter (Entry.passes (Limit.upTo .warn).filter) =
      (ofText source).diagnostics.map .diagnostic := by
  rw [entries, List.filter_append, diagnosticsOf, ← findingsQuiet]
  exact List.append_nil _

theorem oneLineDiagnostics {line : Text} (single : '\n' ∉ line) :
    (ofText line).diagnostics = (ofText line).errors.map fun e => ⟨1, e.message⟩ := by
  refine List.map_congr_left fun e member => ?_
  obtain ⟨f, found, seen⟩ := List.mem_filterMap.mp member
  have report : f.report? = some e.diagnostic := by rw [Finding.report?, seen, Option.map_some]
  have first : e.diagnostic.line = 1 := (reportLine report).trans (findingsOneLine single f found)
  exact congrArg (Diagnostic.mk · e.message) first

end Scan

namespace Command

theorem sessionLines (results : List (Except Fault Text)) : ∃ lines : List Text,
    (session results).out = lines.flatMap (fun line => (turn line).out) ∧
    (session results).entries = lines.flatMap (fun line => (turn line).entries) ∧
    (results = lines.map .ok ∧ (session results).exit = 0 ∧ (session results).fault = none ∨
      ∃ fault rest, results = lines.map .ok ++ .error fault :: rest ∧ (session results).exit = 1 ∧
        (session results).fault = some fault) := by
  induction results with
  | nil => exact ⟨[], rfl, rfl, .inl ⟨rfl, rfl, rfl⟩⟩
  | cons result rest ih =>
    cases result with
    | error fault => exact ⟨[], rfl, rfl, .inr ⟨fault, rest, rfl, rfl, rfl⟩⟩
    | ok line =>
      obtain ⟨lines, out, entries, ending⟩ := ih
      refine ⟨line :: lines, ?_, ?_, ?_⟩
      · simp only [session, out, List.flatMap_cons]
      · simp only [session, entries, List.flatMap_cons]
      · rcases ending with ⟨all, exit, fault⟩ | ⟨cause, behind, all, exit, fault⟩
        · exact .inl ⟨congrArg (Except.ok line :: ·) all, exit, fault⟩
        · exact .inr ⟨cause, behind, congrArg (Except.ok line :: ·) all, exit, fault⟩

end Command

namespace Prompt

theorem resultKinds (bytes : Bytes) : ∀ result ∈ (ofParts [.chunk bytes]).all,
    (∀ line, result = .ok line → '\n' ∉ line) ∧ ∀ fault, result = .error fault → fault = .notText := by
  intro result member
  have all := allChunks [bytes]
  rw [List.flatten_singleton] at all
  have listed : result ∈ (lines bytes).map reading := List.takeWhile_subset _ (all ▸ member)
  obtain ⟨raw, there, read⟩ := List.mem_map.mp listed
  unfold reading at read
  cases decoded : Utf8.decode raw with
  | none =>
    simp only [decoded, Option.elim_none] at read
    subst read
    simp
  | some text =>
    simp only [decoded, Option.elim_some] at read
    subst read
    have free := Utf8.feedFree (linesFree bytes raw there) decoded
    simp [free]

end Prompt

theorem firstLineText (message : Text) :
    (Entry.diagnostic ⟨1, message⟩).text = "[line 1] Error: ".toList ++ message ++ ['\n'] := by
  have one : Text.ofNat 1 = ['1'] := by decide
  simp [Entry.text, Diagnostic.text, Diagnostic.parts, one]

theorem Program.sessionsAreTurns (folder : Folder) (chunks : List Bytes) (settings : Settings)
    (known : settings.KnowLevels) :
    let yielded := (Prompt.ofParts [.chunk chunks.flatten]).all
    ∃ (lines : List Text) (o : Outcome), run (settings.filter none) folder (chunks.map .chunk) [] = some o ∧
      o.out = "Welcome to lox-scan.\n".toList ++ "> ".toList ++ lines.flatMap (fun line =>
        (Scan.ofText line).tokens.flatMap (fun t => t.text ++ ['\n']) ++ "> ".toList) ∧
      o.entries = lines.flatMap (fun line => (Scan.ofText line).errors.map fun e => .diagnostic ⟨1, e.message⟩) ∧
      o.entries.flatMap Entry.text = lines.flatMap (fun line =>
        (Scan.ofText line).errors.flatMap fun e => "[line 1] Error: ".toList ++ e.message ++ ['\n']) ∧
      (yielded = lines.map .ok ∧ o.exit = 0 ∧ o.fault = none ∨
        ∃ rest, yielded = lines.map .ok ++ .error .notText :: rest ∧ o.exit = 1 ∧ o.fault = some .notText) := by
  intro yielded
  rw [Settings.defaultFilter known]
  obtain ⟨lines, out, entries, ending⟩ := Command.sessionLines yielded
  have kinds := Prompt.resultKinds chunks.flatten
  have listed (line : Text) (member : line ∈ lines) : .ok line ∈ yielded := by
    rcases ending with ⟨all, _⟩ | ⟨_, _, all, _⟩ <;> simp [all, member]
  have shown : (Command.session yielded).entries.filter (Entry.passes (Limit.upTo .warn).filter) =
      lines.flatMap fun line => (Scan.ofText line).errors.map fun e => .diagnostic ⟨1, e.message⟩ := by
    rw [entries, List.filter_flatMap]
    refine List.flatMap_congr fun line member => ?_
    have single := (kinds _ (listed line member)).1 line rfl
    have quiet := Scan.entriesQuiet line
    rw [Scan.oneLineDiagnostics single, List.map_map] at quiet
    exact quiet
  refine ⟨lines, _, runExact _ folder chunks [], ?_, shown, ?_, ?_⟩
  · have written : (fresh.andThen (Limit.upTo .warn).filter (Command.run folder chunks.flatten [])).out =
        Command.banner ++ Command.sign ++ (Command.session yielded).out := rfl
    rw [written, out]
    simp only [Command.turn, dumpLines]
    rfl
  · have told := congrArg (List.flatMap Entry.text) shown
    rw [List.flatMap_assoc] at told
    refine told.trans (List.flatMap_congr fun line _ => ?_)
    rw [List.flatMap_map]
    exact List.flatMap_congr fun e _ => firstLineText e.message
  · rcases ending with ended | ⟨fault, rest, all, exit, told⟩
    · exact .inl ended
    · have member : .error fault ∈ yielded := by simp [all]
      obtain rfl := (kinds _ member).2 fault rfl
      exact .inr ⟨rest, all, exit, told⟩

theorem Program.sessionUpToBytes :
    Settings.plain.KnowLevels ∧
    ∃ o, run (Settings.plain.filter none) (Folder.ofPaths [] [])
        [.chunk [64, 10, 120], .chunk [121, 10, 255, 10, 49]] [] = some o ∧
      o.out = "Welcome to lox-scan.\n> EOF  \n> Identifier xy \nEOF  \n> ".toList ∧
      o.entries = [.diagnostic ⟨1, "Unexpected character.".toList⟩] ∧ o.exit = 1 ∧ o.fault = some .notText := by
  have known := Settings.plainKnowLevels
  obtain ⟨lines, o, ran, out, entries, _, ending⟩ :=
    sessionsAreTurns (Folder.ofPaths [] []) [[64, 10, 120], [121, 10, 255, 10, 49]] Settings.plain known
  have read : (Prompt.ofParts [.chunk [[64, 10, 120], [121, 10, 255, 10, 49]].flatten]).all =
      [.ok ['@'], .ok "xy".toList, .error .notText, .ok ['1']] := by decide +kernel
  rw [read] at ending
  obtain ⟨rfl, exit, fault⟩ : lines = [['@'], "xy".toList] ∧ o.exit = 1 ∧ o.fault = some .notText := by
    rcases ending with ⟨all, _⟩ | ⟨rest, all, exit, fault⟩
    · rcases lines with _ | ⟨_, _ | ⟨_, _ | ⟨_, _⟩⟩⟩ <;> simp at all
    · refine ⟨?_, exit, fault⟩
      rcases lines with _ | ⟨_, _ | ⟨_, _ | ⟨_, _⟩⟩⟩ <;> simp_all
  exact ⟨known, o, ran, out.trans (by decide +kernel), entries.trans (by decide +kernel), exit, fault⟩

end LoxLexer
