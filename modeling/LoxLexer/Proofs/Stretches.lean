import LoxLexer.Proofs.PromptLines
/-! The prompt over an input that fails. Failures cut the input into stretches; a stretch gives its ended
lines and then its failure, the last one all its lines, up to the line that leaves. How a stretch comes
in chunks cannot be seen. -/
namespace LoxLexer

/- Stretches that end with a failure, with its message, and the one behind the last failure. -/
structure Stretches where
  broken : List (Bytes × Text)
  last : Bytes
  deriving DecidableEq, Repr

namespace Stretches

def push (bytes : Bytes) (s : Stretches) : Stretches :=
  match s.broken with
  | [] => ⟨[], bytes ++ s.last⟩
  | (first, message) :: rest => ⟨(bytes ++ first, message) :: rest, s.last⟩

def fail (message : Text) (s : Stretches) : Stretches := ⟨([], message) :: s.broken, s.last⟩

def ofParts : List Part → Stretches
  | [] => ⟨[], []⟩
  | .chunk bytes :: rest => (ofParts rest).push bytes
  | .failure message :: rest => (ofParts rest).fail message

theorem pushNothing (s : Stretches) : s.push [] = s := by
  obtain ⟨broken, last⟩ := s
  cases broken <;> rfl

theorem pushPush (a b : Bytes) (s : Stretches) : (s.push b).push a = s.push (a ++ b) := by
  obtain ⟨broken, last⟩ := s
  cases broken <;> simp [push]

theorem ofChunks (chunks : List Bytes) : ofParts (chunks.map .chunk) = ⟨[], chunks.flatten⟩ := by
  induction chunks with
  | nil => rfl
  | cons bytes rest ih => rw [List.map_cons, ofParts, ih, push, List.flatten_cons]

end Stretches

namespace Prompt

def endedLines (bytes : Bytes) : List Bytes := (bytes.splitOn Part.lineFeed).dropLast

def unended (bytes : Bytes) : Bytes := (bytes.splitOn Part.lineFeed).getLastD []

theorem endedFeed {line : Bytes} (free : Part.lineFeed ∉ line) (rest : Bytes) :
    endedLines (line ++ Part.lineFeed :: rest) = line :: endedLines rest := by
  rw [endedLines, List.splitOn_append_cons_self_of_not_mem free,
    List.dropLast_cons_of_ne_nil (List.splitOn_ne_nil _ _)]
  rfl

theorem unendedFeed {line : Bytes} (free : Part.lineFeed ∉ line) (rest : Bytes) :
    unended (line ++ Part.lineFeed :: rest) = unended rest := by
  rw [unended, List.splitOn_append_cons_self_of_not_mem free, unended]
  cases split : rest.splitOn Part.lineFeed with
  | nil => exact absurd split (List.splitOn_ne_nil _ _)
  | cons first more => rfl

theorem endedFree {line : Bytes} (free : Part.lineFeed ∉ line) : endedLines line = [] ∧ unended line = line := by
  rw [endedLines, unended, List.splitOn_eq_singleton free]
  exact ⟨rfl, rfl⟩

def withoutReturn (line : Bytes) : Bytes :=
  if line.getLast? = some Part.carriageReturn then line.dropLast else line

theorem lineBytesEnded (line : Bytes) : Front.lineBytes line true = withoutReturn line := by
  simp [Front.lineBytes, withoutReturn]

def endedResults (bytes : Bytes) : List (Except Fault Text) :=
  (endedLines bytes).map fun line => reading (withoutReturn line)

def unendedResults (bytes : Bytes) : List (Except Fault Text) :=
  if unended bytes = [] then [] else [reading (unended bytes)]

theorem resultsFeed {line : Bytes} (free : Part.lineFeed ∉ line) (rest : Bytes) :
    endedResults (line ++ Part.lineFeed :: rest) =
      reading (withoutReturn line) :: endedResults rest ∧
    unendedResults (line ++ Part.lineFeed :: rest) = unendedResults rest := by
  simp only [endedResults, unendedResults, endedFeed free, unendedFeed free, List.map_cons, and_self]

theorem resultsFree {line : Bytes} (free : Part.lineFeed ∉ line) :
    endedResults line = [] ∧ unendedResults line = if line = [] then [] else [reading line] := by
  simp only [endedResults, unendedResults, endedFree free, List.map_nil, and_self]

def staysAt : Except Fault Text → Bool
  | .ok line => Text.trim line != "exit".toList
  | .error _ => true

end Prompt

namespace Stretches

def results (s : Stretches) : List (Except Fault Text) :=
  s.broken.flatMap (fun stretch => Prompt.endedResults stretch.1 ++ [.error (.failed stretch.2)]) ++
    (Prompt.endedResults s.last ++ Prompt.unendedResults s.last)

def delivered (s : Stretches) : List (Except Fault Text) := s.results.takeWhile Prompt.staysAt

theorem resultsPushFeed {line : Bytes} (free : Part.lineFeed ∉ line) (behind : Bytes) (s : Stretches) :
    (s.push (line ++ Part.lineFeed :: behind)).results =
      Prompt.reading (Prompt.withoutReturn line) :: (s.push behind).results := by
  obtain ⟨broken, last⟩ := s
  cases broken with
  | nil =>
    obtain ⟨ended, unended⟩ := Prompt.resultsFeed free (behind ++ last)
    simp only [push, results, List.append_assoc, List.cons_append, ended, unended, List.flatMap_nil,
      List.nil_append]
  | cons first rest =>
    obtain ⟨ended, _⟩ := Prompt.resultsFeed free (behind ++ first.1)
    simp only [push, results, List.append_assoc, List.cons_append, ended, List.flatMap_cons]

theorem resultsFail {held : Bytes} (free : Part.lineFeed ∉ held) (message : Text) (s : Stretches) :
    ((s.fail message).push held).results = .error (.failed message) :: s.results := by
  simp only [push, fail, results, List.append_nil, List.flatMap_cons, Prompt.resultsFree free]
  rfl

theorem resultsLast {held : Bytes} (free : Part.lineFeed ∉ held) :
    ((ofParts []).push held).results = if held = [] then [] else [Prompt.reading held] := by
  simp only [push, ofParts, results, List.append_nil, Prompt.resultsFree free]
  rfl

end Stretches

theorem Front.resultLine (bytes : Bytes) (ended : Bool) :
    (Front.line bytes ended).result? = some (Prompt.reading (Front.lineBytes bytes ended)) := by
  rw [Front.result?, Prompt.reading]
  cases Utf8.decode (Front.lineBytes bytes ended) <;> rfl

namespace Part

theorem feedOther {bytes : Bytes} : (∀ b ∈ bytes, (b != lineFeed) = true) ↔ lineFeed ∉ bytes := by
  simp only [bne_iff_ne, ne_eq, List.forall_mem_ne']

theorem feedSplit {bytes behind : Bytes} {c : UInt8} (left : bytes.dropWhile (· != lineFeed) = c :: behind) :
    bytes = bytes.takeWhile (· != lineFeed) ++ lineFeed :: behind ∧
      lineFeed ∉ bytes.takeWhile (· != lineFeed) := by
  have stop := List.head?_dropWhile_not (p := (· != lineFeed)) bytes
  obtain rfl : c = lineFeed := by simpa [left] using stop
  have whole := List.takeWhile_append_dropWhile (p := (· != lineFeed)) (l := bytes)
  rw [left] at whole
  exact ⟨whole.symm, feedOther.mp (List.all_eq_true.mp List.all_takeWhile)⟩

theorem frontResults {held : Bytes} (parts : List Part) (free : lineFeed ∉ held) :
    ((Stretches.ofParts parts).push held).results =
      (front held parts).1.result?.toList ++ (Stretches.ofParts (front held parts).2).results := by
  fun_induction front held parts with
  | case1 held =>
    rw [Stretches.resultsLast free]
    split
    · rfl
    · rw [Front.resultLine]
      rfl
  | case2 held message rest => exact Stretches.resultsFail free message (Stretches.ofParts rest)
  | case3 held bytes rest all ih =>
    -- A chunk without a line feed is held, which moves the bytes it adds from the input to the front.
    have inside : lineFeed ∉ bytes := feedOther.mp (List.dropWhile_eq_nil_iff.mp all)
    rw [Stretches.ofParts, Stretches.pushPush, ih (by simp [free, inside])]
  | case4 held bytes rest c behind left =>
    obtain ⟨whole, inside⟩ := feedSplit left
    have text : held ++ bytes = (held ++ bytes.takeWhile (· != lineFeed)) ++ lineFeed :: behind := by
      rw [List.append_assoc, ← whole]
    have line : lineFeed ∉ held ++ bytes.takeWhile (· != lineFeed) := by simp [free, inside]
    rw [Stretches.ofParts, Stretches.pushPush, text, Stretches.resultsPushFeed line, Front.resultLine,
      Prompt.lineBytesEnded]
    rfl

theorem frontNone {held : Bytes} {parts : List Part} (none : (front held parts).1.result? = none) :
    (front held parts).2 = [] := by
  fun_induction front held parts with
  | case1 held => rfl
  | case2 held message rest => contradiction
  | case3 held bytes rest all ih => exact ih none
  | case4 held bytes rest c behind left =>
    rw [Front.resultLine] at none
    contradiction

end Part

namespace Prompt

theorem nextNothing {parts rest : List Part} {front : Front} (step : Part.front [] parts = (front, rest))
    (nothing : front.result? = none) : (ofParts parts).next = (none, ⟨rest, true⟩) := by
  simp [next, ofParts, step, nothing]

theorem nextLeaves {parts rest : List Part} {front : Front} {result : Except Fault Text}
    (step : Part.front [] parts = (front, rest)) (first : front.result? = some result)
    (leaves : staysAt result = false) : (ofParts parts).next = (none, ⟨rest, true⟩) := by
  cases result with
  | error fault => contradiction
  | ok line =>
    have leaving : isLeaving line = true := by simpa [staysAt, isLeaving] using leaves
    simp [next, ofParts, step, first, leaving]

theorem nextStays {parts rest : List Part} {front : Front} {result : Except Fault Text}
    (step : Part.front [] parts = (front, rest)) (first : front.result? = some result)
    (stays : staysAt result = true) : (ofParts parts).next = (some result, ofParts rest) := by
  cases result with
  | error fault => simp [next, ofParts, step, first]
  | ok line =>
    have leaving : isLeaving line = false := by simpa [staysAt, isLeaving] using stays
    simp [next, ofParts, step, first, leaving]

theorem nextDelivered (parts : List Part) :
    (Stretches.ofParts parts).delivered = [] ∧ (∃ rest, (ofParts parts).next = (none, ⟨rest, true⟩)) ∨
    ∃ result rest, (ofParts parts).next = (some result, ofParts rest) ∧
      (Stretches.ofParts parts).delivered = result :: (Stretches.ofParts rest).delivered := by
  have results := Part.frontResults parts List.not_mem_nil
  have nothing := @Part.frontNone [] parts
  rw [Stretches.pushNothing] at results
  unfold Stretches.delivered
  obtain ⟨front, rest, step⟩ : ∃ front rest, Part.front [] parts = (front, rest) := ⟨_, _, rfl⟩
  rw [step] at results nothing
  cases first : front.result? with
  | none =>
    obtain rfl : rest = [] := nothing first
    rw [first] at results
    exact .inl ⟨by rw [results]; rfl, [], nextNothing step first⟩
  | some result =>
    rw [first, Option.toList_some, List.singleton_append] at results
    rw [results, List.takeWhile_cons]
    cases stays : staysAt result with
    | false => exact .inl ⟨rfl, rest, nextLeaves step first stays⟩
    | true => exact .inr ⟨result, rest, nextStays step first stays, rfl⟩

theorem resultsLeft (n : Nat) (p : Prompt) (left : p.left = true) : results n p = List.replicate n none := by
  induction n with
  | zero => rfl
  | succ n ih =>
    have same : p.next = (none, p) := by simp [next, left]
    rw [results, same, ih, List.replicate_succ]

def answers (all : List (Except Fault Text)) (n : Nat) : List (Option (Except Fault Text)) :=
  (List.range n).map fun i => all[i]?

theorem answersNone (n : Nat) : answers [] n = List.replicate n none := by
  simp [answers, List.map_const']

theorem answersCons (result : Except Fault Text) (rest : List (Except Fault Text)) (n : Nat) :
    answers (result :: rest) (n + 1) = some result :: answers rest n := by
  simp only [answers, List.range_succ_eq_map, List.map_cons, List.map_map]
  rfl

theorem resultsDelivered (parts : List Part) (n : Nat) :
    (ofParts parts).results n = answers (Stretches.ofParts parts).delivered n := by
  induction n generalizing parts with
  | zero => rfl
  | succ n ih =>
    rcases nextDelivered parts with ⟨nothing, rest, next⟩ | ⟨result, rest, next, delivered⟩
    · rw [results, next, resultsLeft n _ rfl, nothing, answersNone]
      rfl
    · rw [results, next, delivered, answersCons, ih]

theorem allDelivered (parts : List Part) : (ofParts parts).all = (Stretches.ofParts parts).delivered := by
  generalize start : ofParts parts = p
  induction p using all.induct generalizing parts with
  | case1 p q ended =>
    subst start
    rcases nextDelivered parts with ⟨nothing, rest, _⟩ | ⟨result, rest, next, _⟩
    · rw [allEnd ended, nothing]
    · rw [next] at ended
      cases ended
  | case2 p result q taken ih =>
    subst start
    rcases nextDelivered parts with ⟨_, rest, next⟩ | ⟨other, rest, next, delivered⟩
    · rw [next] at taken
      cases taken
    · rw [next] at taken
      cases taken
      rw [allStep next, delivered, ih rest rfl]

theorem resultsAll (parts : List Part) (result : Except Fault Text) :
    (∃ n, some result ∈ (ofParts parts).results n) ↔ result ∈ (ofParts parts).all := by
  rw [allDelivered, List.mem_iff_getElem?]
  simp only [resultsDelivered, answers, List.mem_map, List.mem_range]
  constructor
  · rintro ⟨n, i, _, found⟩
    exact ⟨i, found⟩
  · rintro ⟨i, found⟩
    exact ⟨i + 1, i, Nat.lt_succ_self i, found⟩

theorem linesResults (bytes : Bytes) : endedResults bytes ++ unendedResults bytes = (lines bytes).map reading := by
  induction bytes using lineInduction Part.lineFeed with
  | last line free =>
    obtain ⟨ended, unended⟩ := resultsFree free
    rw [linesLast free, ended, unended]
    split <;> rfl
  | line line rest free ih =>
    obtain ⟨ended, unended⟩ := resultsFeed free rest
    rw [linesFeed free, ended, unended, List.cons_append, ih, List.map_cons, lineBytesEnded]

theorem readingStays (line : Bytes) : staysAt (reading line) = true ↔ Stays line := by
  unfold reading Stays
  cases Utf8.decode line <;> simp [staysAt]

theorem allChunks (chunks : List Bytes) :
    (ofParts (chunks.map .chunk)).all = ((lines chunks.flatten).map reading).takeWhile staysAt := by
  have results : (Stretches.ofParts (chunks.map .chunk)).results = (lines chunks.flatten).map reading := by
    rw [Stretches.ofChunks, ← linesResults]
    rfl
  rw [allDelivered, Stretches.delivered, results]

theorem allLines (chunks : List Bytes) (stays : ∀ line ∈ lines chunks.flatten, Stays line) :
    (ofParts (chunks.map .chunk)).all = (lines chunks.flatten).map reading := by
  rw [allChunks, List.takeWhile_eq_self_iff]
  intro result member
  obtain ⟨line, listed, rfl⟩ := List.mem_map.mp member
  exact (readingStays line).mpr (stays line listed)

theorem allJoined (chunks : List Bytes) :
    (ofParts (chunks.map .chunk)).all = (ofParts [.chunk chunks.flatten]).all := by
  have joined := allChunks [chunks.flatten]
  rw [List.flatten_singleton] at joined
  exact (allChunks chunks).trans joined.symm

theorem allBehind (rest : List Part) : (ofParts (.chunk [] :: rest)).all = (ofParts rest).all := by
  rw [allDelivered, allDelivered, Stretches.ofParts, Stretches.pushNothing]

theorem nextLine {line : Bytes} (free : Part.lineFeed ∉ line) (rest : List Part) :
    (ofParts (.chunk (line ++ [Part.lineFeed]) :: rest)).next.1 =
      (ofParts [.chunk (line ++ [Part.lineFeed])]).next.1 ∧
    ((ofParts (.chunk (line ++ [Part.lineFeed]) :: rest)).next.1.isSome →
      (ofParts (.chunk (line ++ [Part.lineFeed]) :: rest)).next.2 = ofParts (.chunk [] :: rest)) := by
  have left : (line ++ [Part.lineFeed]).dropWhile (· != Part.lineFeed) = [Part.lineFeed] :=
    List.dropWhile_append_of_pos (Part.feedOther.mpr free)
  obtain ⟨body, step⟩ : ∃ body, ∀ rest, Part.front [] (.chunk (line ++ [Part.lineFeed]) :: rest) =
      (.line body true, .chunk [] :: rest) := ⟨_, fun rest => by simp only [Part.front, left]; rfl⟩
  have first := Front.resultLine body true
  cases stays : staysAt (reading (Front.lineBytes body true)) with
  | false =>
    rw [nextLeaves (step rest) first stays, nextLeaves (step []) first stays]
    exact ⟨rfl, fun read => by contradiction⟩
  | true =>
    rw [nextStays (step rest) first stays, nextStays (step []) first stays]
    exact ⟨rfl, fun _ => rfl⟩

theorem ofPartsBehind (front : List Part) {a b : List Part} (same : Stretches.ofParts a = Stretches.ofParts b) :
    Stretches.ofParts (front ++ a) = Stretches.ofParts (front ++ b) := by
  induction front with
  | nil => exact same
  | cons part front ih => cases part <;> simp [Stretches.ofParts, ih]

theorem promptOverFailures (n : Nat) :
    (∀ parts : List Part, (ofParts parts).results n =
      (List.range n).map fun i => (Stretches.ofParts parts).delivered[i]?) ∧
    (∀ (front back : List Part) (a b : Bytes),
      (ofParts (front ++ .chunk a :: .chunk b :: back)).results n =
        (ofParts (front ++ .chunk (a ++ b) :: back)).results n) ∧
    ∀ front back : List Part,
      (ofParts (front ++ .chunk [] :: back)).results n = (ofParts (front ++ back)).results n := by
  refine ⟨fun parts => resultsDelivered parts n, fun front back a b => ?_, fun front back => ?_⟩
  · have same : Stretches.ofParts (.chunk a :: .chunk b :: back) = Stretches.ofParts (.chunk (a ++ b) :: back) :=
      Stretches.pushPush a b (.ofParts back)
    rw [resultsDelivered, resultsDelivered, ofPartsBehind front same]
  · have same : Stretches.ofParts (.chunk [] :: back) = Stretches.ofParts back :=
      Stretches.pushNothing (.ofParts back)
    rw [resultsDelivered, resultsDelivered, ofPartsBehind front same]

end Prompt
end LoxLexer
