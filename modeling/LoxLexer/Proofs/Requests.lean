import LoxLexer.Proofs.BoundedRun
import LoxLexer.Proofs.Cursor
import Mathlib.Data.List.DropRight
/-! A console asked again and again. What its sink holds, whether it remembers an error and which
diagnostics it lost can be told from the requests alone: from what they report, in order, from the room
there was, and from the last request to forget. -/
namespace LoxLexer

def Diagnostic.bytes (d : Diagnostic) : Bytes :=
  Utf8.encode ("[line ".toList ++ Text.ofNat d.line ++ "] Error: ".toList ++ d.message ++ ['\n'])

namespace Request

def reports : Request → List Diagnostic
  | print d => [d]
  | forget => []
  | scan source => (Scan.ofText source).diagnostics

def source? : Request → Option Text
  | scan source => some source
  | _ => none

def unforgotten (requests : List Request) : List Request := requests.rtakeWhile (· != forget)

end Request

structure Reported where
  before : List Diagnostic
  diagnostic : Diagnostic
  deriving DecidableEq, Repr

namespace Reported

def behind (before : List Diagnostic) : List Diagnostic → List Reported
  | [] => []
  | d :: rest => ⟨before, d⟩ :: behind (before ++ [d]) rest

def ending (r : Reported) : Nat := (r.before.flatMap Diagnostic.bytes).length + r.diagnostic.bytes.length

def isLost (room : Option Nat) (r : Reported) : Bool := room.any (· < r.ending)

def warning (r : Reported) : Event := .diagnosticLost r.diagnostic.line "device full".toList

theorem behindAppend (before a b : List Diagnostic) :
    behind before (a ++ b) = behind before a ++ behind (before ++ a) b := by
  induction a generalizing before with
  | nil => simp [behind]
  | cons d rest ih => simp [behind, ih]

theorem behindEnding {before : List Diagnostic} {ds : List Diagnostic} {r : Reported}
    (member : r ∈ behind before ds) : (before.flatMap Diagnostic.bytes).length ≤ r.ending := by
  induction ds generalizing before with
  | nil => contradiction
  | cons d rest ih =>
    rcases List.mem_cons.mp member with rfl | later
    · exact Nat.le_add_right _ _
    · have further := ih later
      simp only [List.flatMap_append, List.length_append] at further
      omega

theorem lostBehind (room : Option Nat) (before ds : List Diagnostic) :
    (behind before ds).Pairwise fun a b => a.isLost room = true → b.isLost room = true := by
  induction ds generalizing before with
  | nil => exact List.Pairwise.nil
  | cons d rest ih =>
    refine List.Pairwise.cons (fun r member lost => ?_) (ih _)
    have further := behindEnding member
    simp only [isLost, Option.any_eq_true, decide_eq_true_eq] at lost ⊢
    obtain ⟨n, same, short⟩ := lost
    refine ⟨n, same, Nat.lt_of_lt_of_le short ?_⟩
    simpa [ending] using further

theorem filterBehind {α : Type} {p : α → Bool} {l : List α} (closed : l.Pairwise fun a b => p a = true → p b = true) :
    l.filter p = l.dropWhile fun a => !p a := by
  induction closed with
  | nil => rfl
  | @cons a l above _ ih =>
    cases here : p a with
    | false => simpa [here] using ih
    | true =>
      have all : l.filter p = l := List.filter_eq_self.mpr fun b member => above b member here
      simp [here, all]

end Reported

namespace Console

theorem bytesText (d : Diagnostic) : d.bytes = Utf8.encode d.text := by
  rw [Diagnostic.bytes, complaintText]

theorem bytesSome (d : Diagnostic) : 0 < d.bytes.length := by
  have feed : (Utf8.encode ['\n']).length = 1 := rfl
  rw [Diagnostic.bytes, Utf8.encodeAppend, List.length_append, feed]
  exact Nat.succ_pos _

/- The sink is as if all that was reported had been sent to it at once. No request ends this. -/
def Received (c : Console) (room : Option Nat) (reported : List Diagnostic) : Prop :=
  Sink.Alike c.sink ((Sink.empty room).write (reported.flatMap Diagnostic.bytes))

theorem receivedNothing (room : Option Nat) : (fresh (Sink.empty room)).Received room [] := Sink.alikeNothing _

variable {c : Console} {room : Option Nat} {before : List Diagnostic}

theorem receivedContent (received : c.Received room before) :
    c.sink.content = room.elim (before.flatMap Diagnostic.bytes) (before.flatMap Diagnostic.bytes).take :=
  received.content.trans (Sink.emptyTakes room _)

theorem receivedPrinted (received : c.Received room before) (ds : List Diagnostic) :
    (c.printAll ds).Received room (before ++ ds) := by
  have printed := alikePrintAll c ds
  simp only [← bytesText] at printed
  have further := printed.trans ((Sink.alikeWrite received _).trans (Sink.alikeAppend _ _ _))
  rwa [← List.flatMap_append] at further

/- No room left and no room for it are the same to a diagnostic, as none has an empty text. -/
theorem lostUnlessFits (received : c.Received room before) (d : Diagnostic) :
    Reported.isLost room ⟨before, d⟩ = !c.sink.fits d.bytes := by
  have more := bytesSome d
  have left := received.room
  cases room with
  | none =>
    have free : c.sink.room = none := left
    simp [Sink.fits, free, Reported.isLost]
  | some n =>
    have free : c.sink.room = some (n - (before.flatMap Diagnostic.bytes).length) := left
    have lost : Reported.isLost (some n) ⟨before, d⟩ =
        decide (n < (before.flatMap Diagnostic.bytes).length + d.bytes.length) := rfl
    rw [lost, Sink.fits, free, Option.all_some, ← decide_not]
    exact decide_eq_decide.mpr (by omega)

theorem warningLost (received : c.Received room before) (d : Diagnostic) : c.warning? d =
    if Reported.isLost room ⟨before, d⟩ then some (Reported.warning ⟨before, d⟩) else none := by
  have text : (d.parts.map Utf8.encode).flatten = d.bytes := by
    rw [Utf8.encodeFlatten, bytesText, Diagnostic.text]
  have fits := Sink.partsFit c.sink (d.parts.map Utf8.encode)
  rw [text] at fits
  rw [warning?, fits, lostUnlessFits received]
  cases c.sink.fits d.bytes <;> rfl

theorem warningsLost (received : c.Received room before) (ds : List Diagnostic) :
    c.warnings ds = ((Reported.behind before ds).filter (Reported.isLost room)).map Reported.warning := by
  induction ds generalizing c before with
  | nil => rfl
  | cons d rest ih =>
    have later : (c.print d).warnings rest = _ := ih (receivedPrinted received [d])
    rw [warnings, warningLost received, later, Reported.behind, List.filter_cons]
    split <;> rfl

def after (c : Console) (requests : List Request) : Console := requests.foldl (fun c r => (c.serve r).2) c

theorem afterLast (c : Console) (earlier : List Request) (request : Request) :
    c.after (earlier ++ [request]) = ((c.after earlier).serve request).2 := by
  simp [after]

theorem servedAt (c : Console) (earlier : List Request) (request : Request) (later : List Request) :
    (c.serveAll (earlier ++ request :: later))[earlier.length]? = some ((c.after earlier).serve request) := by
  induction earlier generalizing c with
  | nil => rfl
  | cons first rest ih => exact ih (c.serve first).2

theorem servedWarnings (c : Console) (request : Request) :
    (c.serve request).1.warnings = c.warnings request.reports := by
  cases request <;> rfl

theorem receivedServed (received : c.Received room before) (request : Request) :
    (c.serve request).2.Received room (before ++ request.reports) := by
  have printed := receivedPrinted received request.reports
  cases request <;> exact printed

theorem receivedAfter (received : c.Received room before) (requests : List Request) :
    (c.after requests).Received room (before ++ requests.flatMap Request.reports) := by
  induction requests generalizing c before with
  | nil => simpa [after] using received
  | cons request rest ih =>
    have later := ih (receivedServed received request)
    rwa [List.append_assoc] at later

theorem allWarningsLost (received : c.Received room before) (requests : List Request) :
    ((c.serveAll requests).flatMap fun answer => answer.1.warnings) =
      ((Reported.behind before (requests.flatMap Request.reports)).filter (Reported.isLost room)).map
        Reported.warning := by
  induction requests generalizing c before with
  | nil => rfl
  | cons request rest ih =>
    have later := ih (receivedServed received request)
    rw [serveAll, List.flatMap_cons, List.flatMap_cons, servedWarnings, warningsLost received, later,
      Reported.behindAppend, List.filter_append, List.map_append]

theorem seenAfter (sink : Sink) (requests : List Request) : ((fresh sink).after requests).errorSeen = true ↔
    (Request.unforgotten requests).flatMap Request.reports ≠ [] := by
  -- The last request decides whether what is before it counts at all.
  induction requests using List.reverseRecOn with
  | nil => simp [after, fresh, Request.unforgotten]
  | append_singleton earlier request ih =>
    rw [afterLast, Request.unforgotten, List.rtakeWhile_concat]
    cases request with
    | forget => simp [serve, forget]
    | print d => simp [serve, print, Request.reports]
    | scan source =>
      have seen := errorSeenAll ((fresh sink).after earlier) (Scan.ofText source).diagnostics
      simp only [serve, seen, Bool.or_eq_true, ih, Request.unforgotten]
      simp [Request.reports, imp_iff_not_or]

theorem servedTokens (c : Console) (request : Request) :
    (c.serve request).1.tokens.map (fun tokens => some (tokens, request.reports)) =
      request.source?.map fun source => (Scanner.fresh source).scanTokens.map fun s => (s.tokens, s.diagnostics) := by
  cases request with
  | print d => rfl
  | forget => rfl
  | scan source =>
    obtain ⟨s, answered, tokens, _, diagnostics⟩ := Scanner.scanAnswers source
    simp [serve, Request.reports, Request.source?, answered, tokens, diagnostics]

theorem everyRequestServed (room : Option Nat) (earlier : List Request) (request : Request) (later : List Request) :
    let answers := (fresh (Sink.empty room)).serveAll (earlier ++ request :: later)
    let before := earlier.flatMap Request.reports
    let sent := (before ++ request.reports).flatMap Diagnostic.bytes
    (∃ reply console, answers[earlier.length]? = some (reply, console) ∧
      console.sink.content = room.elim sent sent.take ∧
      (console.errorSeen = true ↔ (Request.unforgotten (earlier ++ [request])).flatMap Request.reports ≠ []) ∧
      reply.warnings =
        ((Reported.behind before request.reports).filter (Reported.isLost room)).map Reported.warning ∧
      reply.tokens.map (fun tokens => some (tokens, request.reports)) =
        request.source?.map fun source => (Scanner.fresh source).scanTokens.map fun s => (s.tokens, s.diagnostics)) ∧
    (answers.flatMap fun answer => answer.1.warnings) =
      ((Reported.behind [] ((earlier ++ request :: later).flatMap Request.reports)).dropWhile
        fun r => !r.isLost room).map Reported.warning := by
  intro answers before sent
  have start := receivedNothing room
  constructor
  · have received := receivedAfter start earlier
    have content := receivedContent (receivedServed received request)
    have warned := (servedWarnings _ request).trans (warningsLost received request.reports)
    have seen := seenAfter (Sink.empty room) (earlier ++ [request])
    rw [afterLast] at seen
    exact ⟨(((fresh (Sink.empty room)).after earlier).serve request).1, _, servedAt _ earlier request later, content,
      seen, warned, servedTokens _ request⟩
  · have lost := allWarningsLost start (earlier ++ request :: later)
    rw [Reported.filterBehind (Reported.lostBehind room _ _)] at lost
    exact lost

end Console
end LoxLexer
