import LoxLexer.Proofs.BoundedRun
import LoxLexer.Proofs.Programs
import LoxLexer.Main.PlainSettings
/-! A script at every log setting. What it writes, how it ends and which diagnostics it gives follow from its bytes,
whatever the log lets through. A setting only decides which events stand among the diagnostics, and a higher level
leaves none out that a lower one shows. -/
namespace LoxLexer

def Outcome.diagnostics (o : Outcome) : List Diagnostic := o.entries.filterMap Entry.diagnostic?

theorem passesHigher {low high : Limit} (below : low.rank ≤ high.rank) {entry : Entry}
    (passes : entry.passes low.filter = true) : entry.passes high.filter = true := by
  cases entry with
  | diagnostic d => rfl
  | event e =>
    simp only [Entry.passes, Limit.filter, decide_eq_true_eq] at passes ⊢
    exact Nat.le_trans passes below

theorem diagnosticsPass (f : Filter) (entries : List Entry) :
    (entries.filter (Entry.passes f)).filterMap Entry.diagnostic? = entries.filterMap Entry.diagnostic? := by
  induction entries with
  | nil => rfl
  | cons entry rest ih =>
    cases entry with
    | diagnostic d => exact congrArg (d :: ·) ih
    | event e =>
      rw [List.filter_cons]
      split <;> exact ih

namespace Program

theorem freshThen (f : Filter) (o : Outcome) : fresh.andThen f o = ⟨o.exit, o.out, o.shown f, o.fault⟩ := rfl

theorem freshDiagnostics (f : Filter) (o : Outcome) : (fresh.andThen f o).diagnostics = o.diagnostics :=
  diagnosticsPass f o.entries

theorem freshHigher {low high : Limit} (below : low.rank ≤ high.rank) (o : Outcome) :
    (fresh.andThen low.filter o).entries.Sublist (fresh.andThen high.filter o).entries :=
  List.monotone_filter_right o.entries fun _ passes => passesHigher below passes

theorem scriptRun (filter : Filter) (folder : Folder) (path : Text) (input : List Part) :
    run filter folder input [path] = some (fresh.andThen filter (Command.run folder [] [path])) := by
  rw [run, opened, Command.ofArguments]
  dsimp only
  rw [runScriptExact _ (startUnseen [path]), noteThen]
  rfl

end Program

namespace Command

variable {folder : Folder} {path : Text} {bytes : Bytes}

theorem scriptUnreadable (found : folder.read path = .ok bytes) (input : Bytes) (unreadable : Utf8.decode bytes = none) :
    run folder input [path] = ⟨1, [], [starting [path]], some .notText⟩ := by
  simp [run, ofArguments, runScript, found, unreadable, Outcome.exitFault]

theorem scriptReadable (found : folder.read path = .ok bytes) (input : Bytes) {source : Text}
    (readable : Utf8.decode bytes = some source) : run folder input [path] =
      ⟨if (Scan.ofText source).errors = [] then 0 else 69, Token.dump (Scan.ofText source).tokens,
        starting [path] :: .event (.scriptRead path bytes.length) :: (Scan.ofText source).entries, none⟩ := by
  simp [run, ofArguments, runScript, found, readable, Outcome.exitErrors]

end Command

theorem Program.scriptsAtEveryLevel (folder : Folder) (path : Text) (bytes : Bytes) (input : List Part)
    (found : folder.read path = .ok bytes) (settings : Settings) :
    (∀ setting : Option Text, ∃ o, run (settings.filter setting) folder input [path] = some o ∧
      ((∀ source, bytes ≠ Utf8.encode source) →
        o.exit = 1 ∧ o.fault = some .notText ∧ o.out = [] ∧ o.diagnostics = []) ∧
      ∀ source, bytes = Utf8.encode source → ∃ s, (Scanner.fresh source).scanTokens = some s ∧
        o.exit = (if s.diagnostics = [] then 0 else 69) ∧ o.fault = none ∧
        o.out = s.tokens.flatMap (fun t => t.text ++ ['\n']) ∧
        o.diagnostics = s.diagnostics ∧
        o.diagnostics.map Diagnostic.text = s.diagnostics.map fun d =>
          "[line ".toList ++ Text.ofNat d.line ++ "] Error: ".toList ++ d.message ++ ['\n']) ∧
    (∀ setting other : Option Text, ∃ o q, run (settings.filter setting) folder input [path] = some o ∧
      run (settings.filter other) folder input [path] = some q ∧
      o.exit = q.exit ∧ o.fault = q.fault ∧ o.out = q.out ∧ o.diagnostics = q.diagnostics) ∧
    (settings.KnowLevels → (["off", "error", "warn", "info", "debug", "trace"].map fun word =>
      run (settings.filter (some word.toList)) folder input [path]).Pairwise
        fun low high => ∃ o q, low = some o ∧ high = some q ∧ o.entries.Sublist q.entries) := by
  have ran (f : Filter) := scriptRun f folder path input
  refine ⟨fun setting => ⟨_, ran _, fun unreadable => ?_, fun source readable => ?_⟩, fun setting other => ?_,
    fun known => ?_⟩
  · have invalid : Utf8.decode bytes = none :=
      Option.eq_none_iff_forall_not_mem.mpr fun source read => unreadable source (Utf8.decodeExact.mp read)
    rw [freshDiagnostics, Command.scriptUnreadable found [] invalid]
    exact ⟨rfl, rfl, rfl, rfl⟩
  · have valid : Utf8.decode bytes = some source := Utf8.decodeExact.mpr readable
    obtain ⟨s, answered, tokens, errors, diagnostics⟩ := Scanner.scanAnswers source
    have reported : (Scan.ofText source).errors = [] ↔ (Scan.ofText source).diagnostics = [] := by
      simp [Scan.diagnostics]
    rw [freshDiagnostics, freshThen, Command.scriptReadable found [] valid]
    have told := Scanner.scanDiagnostics source
    refine ⟨s, answered, ?_⟩
    rw [tokens, diagnostics]
    refine ⟨if_congr reported rfl rfl, rfl, dumpLines _, told, ?_⟩
    exact (congrArg (List.map Diagnostic.text) told).trans (List.map_congr_left fun d _ => complaintText d)
  · refine ⟨_, _, ran _, ran _, rfl, rfl, rfl, ?_⟩
    rw [freshDiagnostics, freshDiagnostics]
  · have words : ["off", "error", "warn", "info", "debug", "trace"].map String.toList = Limit.all.map Limit.word := by
      decide
    have rise : Limit.all.Pairwise fun low high => low.rank ≤ high.rank := by decide
    have same : (["off", "error", "warn", "info", "debug", "trace"].map fun word =>
        run (settings.filter (some word.toList)) folder input [path]) =
        Limit.all.map fun limit => run limit.filter folder input [path] := by
      have runs := congrArg (List.map fun word => run (settings.filter (some word)) folder input [path]) words
      simpa only [List.map_map, Function.comp_def, Settings.limitFilter known] using runs
    rw [same]
    refine List.pairwise_map.mpr (rise.imp fun below => ?_)
    exact ⟨_, _, ran _, ran _, freshHigher below _⟩

theorem Program.brokenScriptAtEveryLevel :
    let folder := Folder.ofPaths [("a.lox".toList, [49, 64, 10, 34])] []
    folder.read "a.lox".toList = .ok [49, 64, 10, 34] ∧ Settings.plain.KnowLevels ∧
    ∃ quiet loud, run (Settings.plain.filter (some "off".toList)) folder [] ["a.lox".toList] = some quiet ∧
      run (Settings.plain.filter (some "trace".toList)) folder [] ["a.lox".toList] = some loud ∧
      quiet.exit = 69 ∧ quiet.out = "Number 1 1\nEOF  \n".toList ∧
      quiet.diagnostics = [⟨1, "Unexpected character.".toList⟩, ⟨2, "Unterminated string.".toList⟩] ∧
      loud.exit = 69 ∧ loud.diagnostics = quiet.diagnostics ∧ quiet.entries.Sublist loud.entries := by
  intro folder
  have found : folder.read "a.lox".toList = .ok [49, 64, 10, 34] := by decide +kernel
  obtain ⟨scripts, same, levels⟩ :=
    scriptsAtEveryLevel folder "a.lox".toList [49, 64, 10, 34] [] found Settings.plain
  obtain ⟨quiet, ranQuiet, _, readable⟩ := scripts (some "off".toList)
  obtain ⟨s, answered, exit, _, out, diagnostics, _⟩ := readable "1@\n\"".toList (by decide)
  obtain ⟨_, loud, again, ranLoud, sameExit, _, _, sameDiagnostics⟩ :=
    same (some "off".toList) (some "trace".toList)
  obtain rfl := Option.some.inj (ranQuiet.symm.trans again)
  have last : "trace" ∈ ["error", "warn", "info", "debug", "trace"] := by decide
  obtain ⟨_, _, low, high, fewer⟩ :=
    (List.pairwise_cons.mp (levels Settings.plainKnowLevels)).1 _ (List.mem_map_of_mem last)
  obtain rfl := Option.some.inj (ranQuiet.symm.trans low)
  obtain rfl := Option.some.inj (ranLoud.symm.trans high)
  obtain ⟨tokens, _, told, _⟩ := Scanner.answerExact answered
  have stray : s.diagnostics = [⟨1, "Unexpected character.".toList⟩, ⟨2, "Unterminated string.".toList⟩] :=
    told.trans (by decide +kernel)
  have dumped : s.tokens.flatMap (fun t => t.text ++ ['\n']) = "Number 1 1\nEOF  \n".toList := by
    rw [tokens]
    decide +kernel
  have failed : quiet.exit = 69 := by rw [exit, stray]; rfl
  exact ⟨found, Settings.plainKnowLevels, quiet, loud, ranQuiet, ranLoud, failed, out.trans dumped,
    diagnostics.trans stray, sameExit.symm.trans failed, sameDiagnostics.symm, fewer⟩

end LoxLexer
