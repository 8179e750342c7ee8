import LoxLexer.Fault
import LoxLexer.Text.Utf8
import LoxLexer.Text.Blank
/-! Lines asked for one at a time from an input that comes in chunks and may fail between them. A
failure costs the line it falls into and nothing else; the leaving command ends the input for good,
whatever is behind it. -/
namespace LoxLexer

inductive Part where
  | chunk (bytes : Bytes)
  | failure (message : Text)
  deriving DecidableEq, Repr

structure Prompt where
  parts : List Part
  left : Bool
  deriving DecidableEq, Repr

inductive Front where
  | nothing
  | failure (message : Text)
  | line (bytes : Bytes) (ended : Bool)
  deriving DecidableEq, Repr

namespace Part

def lineFeed : UInt8 := 10

def carriageReturn : UInt8 := 13

def front (held : Bytes) : List Part → Front × List Part
  | [] => (if held = [] then .nothing else .line held false, [])
  | failure message :: rest => (.failure message, rest)
  | chunk bytes :: rest =>
    match bytes.dropWhile (· != lineFeed) with
    | [] => front (held ++ bytes) rest
    | _ :: behind => (.line (held ++ bytes.takeWhile (· != lineFeed)) true, chunk behind :: rest)

def size : Part → Nat
  | chunk bytes => bytes.length + 1
  | failure _ => 1

def extent (parts : List Part) : Nat := parts.foldr (fun part total => part.size + total) 0

theorem frontShrinks (held : Bytes) (parts : List Part) (more : parts ≠ []) :
    extent (front held parts).2 < extent parts := by
  fun_induction front held parts with
  | case1 => contradiction
  | case2 held message rest => simp [extent, size]
  | case3 held bytes rest empty ih =>
    by_cases last : rest = []
    · simp [last, front, extent, size]
    · have shrinks := ih last
      simp only [extent, List.foldr_cons, size] at *
      omega
  | case4 held bytes rest c behind left =>
    have bound := (List.dropWhile_sublist (l := bytes) (· != lineFeed)).length_le
    rw [left] at bound
    simp only [List.length_cons] at bound
    simp only [extent, List.foldr_cons, size]
    omega

theorem frontEmpty : front [] [] = (.nothing, []) := rfl

end Part

namespace Front

def lineBytes (bytes : Bytes) (ended : Bool) : Bytes :=
  if ended && bytes.getLast? == some Part.carriageReturn then bytes.dropLast else bytes

def result? : Front → Option (Except Fault Text)
  | nothing => none
  | failure message => some (.error (.failed message))
  | line bytes ended =>
    match Utf8.decode (lineBytes bytes ended) with
    | none => some (.error .notText)
    | some text => some (.ok text)

end Front

namespace Prompt

def ofParts (parts : List Part) : Prompt := ⟨parts, false⟩

def isLeaving (line : Text) : Bool := Text.trim line == "exit".toList

def next (p : Prompt) : Option (Except Fault Text) × Prompt :=
  if p.left then (none, p)
  else
    let (front, rest) := Part.front [] p.parts
    match front.result? with
    | none => (none, ⟨rest, true⟩)
    | some (.ok line) => if isLeaving line then (none, ⟨rest, true⟩) else (some (.ok line), ⟨rest, false⟩)
    | some (.error fault) => (some (.error fault), ⟨rest, false⟩)

def results : Nat → Prompt → List (Option (Except Fault Text))
  | 0, _ => []
  | n + 1, p => p.next.1 :: results n p.next.2

theorem nextShrinks (p : Prompt) (more : p.next.1.isSome) :
    Part.extent p.next.2.parts < Part.extent p.parts := by
  have parts : p.parts ≠ [] := by
    intro none
    simp only [next, none, Part.frontEmpty, Front.result?] at more
    split at more <;> simp at more
  have shrinks := Part.frontShrinks [] p.parts parts
  unfold next at more ⊢
  split
  · simp_all
  · dsimp only
    split
    · exact shrinks
    · split <;> exact shrinks
    · exact shrinks

def all (p : Prompt) : List (Except Fault Text) :=
  match _taken : p.next with
  | (none, _) => []
  | (some result, rest) => result :: all rest
termination_by Part.extent p.parts
decreasing_by
  have shrinks := nextShrinks p (by simp [_taken])
  simpa [_taken] using shrinks

end Prompt
end LoxLexer
