import LoxLexer.Dump
import LoxLexer.Proofs.Calls
/-! A run over sinks with little room. What a sink holds in the end is the beginning of all that was sent
to it, however it was sent in parts; so the tokens and the diagnostics of a source are written as far as
there is room for them, and neither is written less for want of room for the other. -/
namespace LoxLexer

namespace Sink

structure Alike (a b : Sink) : Prop where
  content : a.content = b.content
  room : a.room = b.room

theorem Alike.trans {a b c : Sink} (one : Alike a b) (other : Alike b c) : Alike a c :=
  ⟨one.content.trans other.content, one.room.trans other.room⟩

theorem alikeWrite {a b : Sink} (alike : Alike a b) (bytes : Bytes) : Alike (a.write bytes) (b.write bytes) := by
  refine ⟨?_, ?_⟩
  · rw [contentWrite, contentWrite, alike.content, kept, kept, alike.room]
  · simp only [write, alike.room]

theorem alikeNothing (s : Sink) : Alike s (s.write []) := by
  obtain ⟨room, chunks⟩ := s
  cases room <;> exact ⟨by simp [contentWrite, kept], by simp [write]⟩

theorem alikeAppend (s : Sink) (a b : Bytes) : Alike ((s.write a).write b) (s.write (a ++ b)) := by
  refine ⟨(contentWriteAppend s a b).symm, ?_⟩
  cases room : s.room with
  | none => simp [write, room]
  | some n => simp [write, room, Nat.sub_sub]

/- A write that does not fit leaves no room, so it is as if all that would follow had been sent too. -/
theorem alikeFull {s : Sink} {a : Bytes} (full : s.fits a = false) (b : Bytes) :
    Alike (s.write a) (s.write (a ++ b)) := by
  refine ⟨(contentFull full b).symm, ?_⟩
  cases room : s.room with
  | none => simp [fits, room] at full
  | some n =>
    simp only [fits, room, Option.all_some, decide_eq_false_iff_not] at full
    simp only [write, room, Option.map_some, List.length_append, Option.some.injEq]
    omega

theorem alikeParts (s : Sink) (parts : List Bytes) : Alike (s.writeParts parts).1 (s.write parts.flatten) := by
  induction parts generalizing s with
  | nil => exact alikeNothing s
  | cons part rest ih =>
    rw [writeParts, List.flatten_cons]
    split
    · exact (ih (s.write part)).trans (alikeAppend s part rest.flatten)
    · rename_i full
      exact alikeFull (by simpa using full) rest.flatten

theorem partsFit (s : Sink) (parts : List Bytes) : (s.writeParts parts).2 = s.fits parts.flatten := by
  induction parts generalizing s with
  | nil => cases room : s.room <;> simp [writeParts, fits, room]
  | cons part rest ih =>
    rw [writeParts, List.flatten_cons, fitsAppend]
    split
    · rename_i fits
      rw [ih, fits, Bool.true_and]
    · rename_i full
      rw [eq_false_of_ne_true full, Bool.false_and]

theorem emptyTakes (room : Option Nat) (bytes : Bytes) :
    ((empty room).write bytes).content = room.elim bytes bytes.take := by
  rw [contentWrite]
  rfl

end Sink

namespace Utf8

theorem encodeFlatten (parts : List Text) : (parts.map encode).flatten = encode parts.flatten := by
  induction parts with
  | nil => rfl
  | cons part rest ih => rw [List.map_cons, List.flatten_cons, List.flatten_cons, encodeAppend, ih]

end Utf8

namespace Console

theorem alikePrint (c : Console) (d : Diagnostic) :
    Sink.Alike (c.print d).sink (c.sink.write (Utf8.encode d.text)) := by
  have parts := Sink.alikeParts c.sink (d.parts.map Utf8.encode)
  rwa [Utf8.encodeFlatten] at parts

theorem alikePrintAll (c : Console) (ds : List Diagnostic) :
    Sink.Alike (c.printAll ds).sink (c.sink.write (ds.flatMap fun d => Utf8.encode d.text)) := by
  induction ds generalizing c with
  | nil => exact Sink.alikeNothing c.sink
  | cons d rest ih =>
    have first := Sink.alikeWrite (alikePrint c d) (rest.flatMap fun d => Utf8.encode d.text)
    exact (ih (c.print d)).trans (first.trans (Sink.alikeAppend c.sink _ _))

theorem errorSeenAll (c : Console) (ds : List Diagnostic) :
    (c.printAll ds).errorSeen = (c.errorSeen || !ds.isEmpty) := by
  induction ds generalizing c with
  | nil => simp [printAll]
  | cons d rest ih =>
    have step : c.printAll (d :: rest) = (c.print d).printAll rest := rfl
    rw [step, ih]
    simp [print]

end Console

theorem complaintText (d : Diagnostic) :
    d.text = "[line ".toList ++ Text.ofNat d.line ++ "] Error: ".toList ++ d.message ++ ['\n'] := by
  simp [Diagnostic.text, Diagnostic.parts]

namespace Token

def dumpBytes (tokens : List Token) : Bytes := tokens.flatMap fun t => Utf8.encode (t.text ++ ['\n'])

theorem dumpFlatten (tokens : List Token) :
    ((tokens.flatMap dumpParts).map Utf8.encode).flatten = dumpBytes tokens := by
  induction tokens with
  | nil => rfl
  | cons t rest ih =>
    have line : t.dumpParts.flatten = t.text ++ ['\n'] := by simp [dumpParts, text]
    rw [List.flatMap_cons, List.map_append, List.flatten_append, ih, Utf8.encodeFlatten, line]
    rfl

theorem dumpWritten (tokens : List Token) (room : Option Nat) :
    ((Sink.empty room).writeTokens tokens).1.content = room.elim (dumpBytes tokens) (dumpBytes tokens).take := by
  have alike := Sink.alikeParts (Sink.empty room) ((tokens.flatMap dumpParts).map Utf8.encode)
  rw [dumpFlatten] at alike
  exact alike.content.trans (Sink.emptyTakes room (dumpBytes tokens))

theorem dumpFault (tokens : List Token) (room : Option Nat) : ((Sink.empty room).writeTokens tokens).2 =
    if room.any (· < (dumpBytes tokens).length) then some .sinkFull else none := by
  rw [Sink.writeTokens]
  dsimp only
  rw [Sink.partsFit, dumpFlatten]
  cases room with
  | none => rfl
  | some n => by_cases short : n < (dumpBytes tokens).length <;> simp [Sink.fits, Sink.empty, short]

end Token

namespace Run

theorem ofTextExact (source : Text) : ∃ s, (Scanner.fresh source).scanTokens = some s ∧ ∀ out console,
    ofText source out console =
      some ⟨(out.writeTokens s.tokens).1, console.printAll s.diagnostics, (out.writeTokens s.tokens).2⟩ := by
  obtain ⟨s, answered, tokens, _, diagnostics⟩ := Scanner.scanAnswers source
  refine ⟨s, answered, fun out console => ?_⟩
  obtain ⟨t, _, same, asked⟩ := Scanner.askFresh Console.print source console
  rw [ofText, Scanner.tokenize, Scanner.surrender, asked, Option.map_some, Option.map_some, same, tokens, diagnostics]
  rfl

theorem runKeepsBeginnings (source : Text) (outRoom errRoom : Option Nat) :
    ∃ s run, (Scanner.fresh source).scanTokens = some s ∧
      ofText source (Sink.empty outRoom) (Console.fresh (Sink.empty errRoom)) = some run ∧
      let dump := s.tokens.flatMap fun t => Utf8.encode (t.text ++ ['\n'])
      let complaints := s.diagnostics.flatMap fun d =>
        Utf8.encode ("[line ".toList ++ Text.ofNat d.line ++ "] Error: ".toList ++ d.message ++ ['\n'])
      run.out.content = outRoom.elim dump dump.take ∧
      run.console.sink.content = errRoom.elim complaints complaints.take ∧
      run.fault = (if outRoom.any (· < dump.length) then some .sinkFull else none) ∧
      (run.console.errorSeen = true ↔ s.errors ≠ []) ∧
      (∀ other, ∃ again, ofText source (Sink.empty outRoom) (Console.fresh (Sink.empty other)) = some again ∧
        again.out = run.out ∧ again.fault = run.fault) ∧
      ∀ other, ∃ again, ofText source (Sink.empty other) (Console.fresh (Sink.empty errRoom)) = some again ∧
        again.console = run.console := by
  obtain ⟨s, answered, ran⟩ := ofTextExact source
  refine ⟨s, _, answered, ran _ _, Token.dumpWritten s.tokens outRoom, ?_, Token.dumpFault s.tokens outRoom, ?_,
    fun _ => ⟨_, ran _ _, rfl, rfl⟩, fun _ => ⟨_, ran _ _, rfl⟩⟩
  · have alike := Console.alikePrintAll (Console.fresh (Sink.empty errRoom)) s.diagnostics
    simp only [complaintText] at alike
    exact alike.content.trans (Sink.emptyTakes errRoom _)
  · obtain ⟨_, errors, diagnostics, _⟩ := Scanner.answerExact answered
    have seen := Console.errorSeenAll (Console.fresh (Sink.empty errRoom)) s.diagnostics
    dsimp only
    rw [seen, diagnostics, errors]
    simp [Console.fresh, Scan.diagnostics]

end Run
end LoxLexer
