import LoxLexer.Program
import LoxLexer.Proofs.Cursor
import LoxLexer.Proofs.Stretches
/-! What a program comes to. Whatever it has done before, it writes and reports next what its command says, and
of the entries those that its log lets through; so the filter chooses entries and does nothing else. -/
namespace LoxLexer

namespace Scan

theorem noReports (source : Text) : (ofText source).diagnostics.isEmpty = (ofText source).errors.isEmpty := by
  simp [diagnostics]

end Scan

theorem dumpLines (tokens : List Token) : Token.dump tokens = tokens.flatMap fun t => t.text ++ ['\n'] := by
  refine List.flatMap_congr fun t _ => ?_
  simp [Token.dumpLine, Token.dumpParts, Token.text]

namespace Program

variable {filter : Filter}

def andThen (filter : Filter) (p : Program) (o : Outcome) : Outcome :=
  ⟨o.exit, p.out ++ o.out, p.err ++ o.shown filter, o.fault⟩

theorem shownFirst (entry : Entry) (rest : List Entry) : (entry :: rest).filter (Entry.passes filter) =
    [entry].filter (Entry.passes filter) ++ rest.filter (Entry.passes filter) :=
  List.filter_append [entry] rest

theorem noteExact (p : Program) (entry : Entry) : p.note filter entry =
    ⟨p.out, p.err ++ [entry].filter (Entry.passes filter), p.errorSeen || entry.diagnostic?.isSome⟩ := by
  cases entry with
  | diagnostic d => simp [note, report, List.filter, Entry.passes, Entry.diagnostic?]
  | event e =>
    simp only [note, log, List.filter, Entry.passes, Entry.diagnostic?]
    cases filter.admits e <;> simp

theorem noteAll (p : Program) (entries : List Entry) : entries.foldl (note filter) p =
    ⟨p.out, p.err ++ entries.filter (Entry.passes filter),
      p.errorSeen || !(entries.filterMap Entry.diagnostic?).isEmpty⟩ := by
  induction entries generalizing p with
  | nil => simp
  | cons entry rest ih =>
    have seen : (!((entry :: rest).filterMap Entry.diagnostic?).isEmpty) =
        (entry.diagnostic?.isSome || !(rest.filterMap Entry.diagnostic?).isEmpty) := by
      cases entry <;> rfl
    rw [List.foldl_cons, ih, shownFirst]
    simp only [noteExact, seen, List.append_assoc, Bool.or_assoc]

theorem dumpExact (p : Program) (source : Text) : p.dump filter source = some
    ⟨p.out ++ Token.dump (Scan.ofText source).tokens,
      p.err ++ (Scan.ofText source).entries.filter (Entry.passes filter),
      p.errorSeen || !(Scan.ofText source).errors.isEmpty⟩ := by
  obtain ⟨s, answered, _, tokens, entries⟩ := Scanner.scanTokensExact source
  rw [dump, answered, Option.map_some, noteAll, entries, tokens, Scanner.scanDiagnostics, Scan.noReports]
  rfl

theorem noteThen (p : Program) (entry : Entry) (o : Outcome) :
    (p.note filter entry).andThen filter o = p.andThen filter { o with entries := entry :: o.entries } := by
  simp only [andThen, noteExact, Outcome.shown, shownFirst entry o.entries, List.append_assoc]

theorem putThen (p : Program) (text : Text) (o : Outcome) :
    (p.put text).andThen filter o = p.andThen filter { o with out := text ++ o.out } := by
  simp only [andThen, put, Outcome.shown, List.append_assoc]

theorem dumpDone (p : Program) (unseen : p.errorSeen = false) (source : Text) :
    ((p.dump filter source).map fun p => p.done (if p.errorSeen then Outcome.exitErrors else 0)) =
      some (p.andThen filter ⟨if (Scan.ofText source).errors = [] then 0 else Outcome.exitErrors,
        Token.dump (Scan.ofText source).tokens, (Scan.ofText source).entries, none⟩) := by
  have exit : (if (!(Scan.ofText source).errors.isEmpty) = true then Outcome.exitErrors else 0) =
      if (Scan.ofText source).errors = [] then 0 else Outcome.exitErrors := by
    cases (Scan.ofText source).errors <;> rfl
  simp only [dumpExact, unseen, Option.map_some, Bool.false_or, exit, done, andThen, Outcome.shown]

theorem runScriptExact (p : Program) (unseen : p.errorSeen = false) (path : Text) (read : Except Fault Bytes) :
    p.runScript filter path read = some (p.andThen filter (Command.runScript path read)) := by
  cases read with
  | error fault => simp [runScript, Command.runScript, andThen, failed, Outcome.shown]
  | ok bytes =>
    cases decoded : Utf8.decode bytes with
    | none => simp [runScript, Command.runScript, decoded, andThen, failed, Outcome.shown]
    | some source =>
      have logged : (p.note filter (.event (.scriptRead path bytes.length))).errorSeen = false := by
        simp [noteExact, unseen, Entry.diagnostic?]
      have done := @dumpDone filter _ logged source
      rw [noteThen] at done
      simp only [runScript, Command.runScript, decoded]
      exact done

theorem turnsStep (p : Program) (prompt : Prompt) :
    p.turns filter prompt = (p.turn filter prompt.next.1).bind (resume filter prompt.next.2) := by
  rw [turns]
  split <;> simp_all [resume]

theorem turnsExact (p : Program) (prompt : Prompt) :
    p.turns filter prompt = some (p.andThen filter (Command.session prompt.all)) := by
  -- Any program will do: a line leaves its flag and what it wrote behind, and the session to come asks for neither.
  induction prompt using Prompt.all.induct generalizing p with
  | case1 prompt rest ended =>
    rw [turnsStep, ended, Prompt.allEnd ended]
    simp [turn, resume, Command.session, andThen, done, Outcome.shown]
  | case2 prompt result rest taken ih =>
    rw [turnsStep, taken, Prompt.allStep taken]
    cases result with
    | error fault => simp [turn, resume, Command.session, andThen, failed, Outcome.shown]
    | ok line =>
      simp only [turn, dumpExact, Option.map_some, Option.bind_some, resume, ih]
      simp [Command.session, Command.turn, andThen, forget, put, Outcome.shown]

def behind (p : Program) (o : Outcome) : Outcome :=
  { o with out := p.out ++ o.out, entries := p.err ++ o.entries }

theorem turnsFlushed (p : Program) (prompt : Prompt) :
    p.turns filter prompt = (p.flushed.turns filter prompt).map p.behind := by
  rw [turnsExact, turnsExact]
  rfl

/- A session may write what it has before each turn, and read its input a line at a time, each when its turn comes. -/
theorem turnsByLine (p : Program) {line : Bytes} (free : Part.lineFeed ∉ line) (rest : List Part) :
    p.turns filter (Prompt.ofParts (.chunk (line ++ [Part.lineFeed]) :: rest)) =
      ((p.flushed.turn filter (Prompt.ofParts [.chunk (line ++ [Part.lineFeed])]).next.1).bind
        (resume filter (Prompt.ofParts rest))).map p.behind := by
  obtain ⟨first, after⟩ := Prompt.nextLine free rest
  rw [turnsFlushed, turnsStep, first]
  refine congrArg (Option.map p.behind) (Option.bind_congr fun next turned => ?_)
  cases next with
  | error outcome => rfl
  | ok q =>
    rw [after (first ▸ turnReads filter turned)]
    simp only [resume, turnsExact, Prompt.allBehind]

theorem startUnseen (arguments : List Text) : (fresh.note filter (Command.starting arguments)).errorSeen = false := by
  simp [noteExact, fresh, Command.starting, Entry.diagnostic?]

theorem runExact (filter : Filter) (folder : Folder) (chunks : List Bytes) (arguments : List Text) :
    run filter folder (chunks.map .chunk) arguments =
      some (fresh.andThen filter (Command.run folder chunks.flatten arguments)) := by
  rw [run, opened, Command.run, ← noteThen]
  cases Command.ofArguments arguments with
  | tooMany count => simp [resume, andThen, put, done, Outcome.shown]
  | script path =>
    dsimp only
    rw [runScriptExact _ (startUnseen arguments)]
    rfl
  | prompt =>
    simp only [Option.bind_some, resume, turnsExact, Prompt.allJoined, putThen, Command.runPrompt, List.append_assoc]

end Program
end LoxLexer
