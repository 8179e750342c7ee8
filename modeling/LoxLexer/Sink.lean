import LoxLexer.Text
/-! A place to write bytes to that may be full some day: of what is written it keeps the bytes for
which there is room, from the front, so what it holds is always a beginning of what it was sent. -/
namespace LoxLexer

/-- Room is in bytes, and unbounded if absent; chunks are kept with the latest first. -/
structure Sink where
  room : Option Nat
  chunks : List Bytes
  deriving DecidableEq, Repr

namespace Sink

def empty (room : Option Nat) : Sink := ⟨room, []⟩

def content (s : Sink) : Bytes := s.chunks.reverse.flatten

def fits (s : Sink) (bytes : Bytes) : Bool := s.room.all fun room => bytes.length ≤ room

def kept (s : Sink) (bytes : Bytes) : Bytes := s.room.elim bytes bytes.take

def write (s : Sink) (bytes : Bytes) : Sink :=
  ⟨s.room.map fun room => room - bytes.length, s.kept bytes :: s.chunks⟩

def writeParts (s : Sink) : List Bytes → Sink × Bool
  | [] => (s, true)
  | part :: rest => if s.fits part then (s.write part).writeParts rest else (s.write part, false)

theorem contentWrite (s : Sink) (bytes : Bytes) :
    (s.write bytes).content = s.content ++ s.kept bytes := by
  simp [content, write]

theorem contentWriteAppend (s : Sink) (a b : Bytes) :
    (s.write (a ++ b)).content = ((s.write a).write b).content := by
  simp only [contentWrite, List.append_assoc]
  congr 1
  cases room : s.room with
  | none => simp [kept, write, room]
  | some n => simp [kept, write, room, List.take_append]

theorem fitsAppend (s : Sink) (a b : Bytes) :
    s.fits (a ++ b) = (s.fits a && (s.write a).fits b) := by
  cases room : s.room with
  | none => simp [fits, write, room]
  | some n =>
    simp only [fits, write, room, Option.map_some, Option.all_some, List.length_append]
    rw [Bool.eq_iff_iff]
    simp only [Bool.and_eq_true, decide_eq_true_eq]
    omega

theorem contentFull {s : Sink} {a : Bytes} (full : s.fits a = false) (b : Bytes) :
    (s.write (a ++ b)).content = (s.write a).content := by
  obtain ⟨room, chunks⟩ := s
  cases room with
  | none => simp [fits] at full
  | some n =>
    have short : n ≤ a.length := by
      simp only [fits, Option.all_some, decide_eq_false_iff_not] at full
      omega
    simp [contentWrite, kept, List.take_append_of_le_length short]

end Sink
end LoxLexer
