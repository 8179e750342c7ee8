import LoxLexer.Command
import Mathlib.Data.List.TakeWhile
/-! The lines of a byte string. An ASCII byte in an encoding is always a character of its own, so a line
can be decoded by itself. -/
namespace LoxLexer

@[elab_as_elim]
theorem lineInduction {α : Type} [DecidableEq α] (feed : α) {motive : List α → Prop}
    (last : ∀ line, feed ∉ line → motive line)
    (line : ∀ line rest, feed ∉ line → motive rest → motive (line ++ feed :: rest))
    (source : List α) : motive source := by
  suffices ∀ front, feed ∉ front → motive (front ++ source) from this [] List.not_mem_nil
  induction source with
  | nil =>
    intro front absent
    rw [List.append_nil]
    exact last front absent
  | cons a rest ih =>
    intro front absent
    by_cases feeds : a = feed
    · subst feeds
      exact line front rest absent (ih [] List.not_mem_nil)
    · have further : feed ∉ front ++ [a] := by simp [absent, Ne.symm feeds]
      simpa using ih (front ++ [a]) further

namespace Utf8

theorem asciiByte {b : UInt8} {c : Char} (ascii : b.toNat < 128) (member : b ∈ String.utf8EncodeChar c) :
    c = Char.ofNat b.toNat ∧ String.utf8EncodeChar c = [b] := by
  unfold String.utf8EncodeChar at member ⊢
  dsimp only at member ⊢
  split at member
  · rename_i small
    obtain rfl := List.mem_singleton.mp member
    have value : (UInt8.ofNat c.val.toNat).toNat = c.toNat :=
      UInt8.toNat_ofNat_of_lt' (Nat.lt_of_le_of_lt small (by decide))
    rw [value, Char.ofNat_toNat]
    exact ⟨rfl, if_pos small⟩
  · exfalso
    split at member
    · simp only [List.mem_cons, List.not_mem_nil, or_false] at member
      rcases member with rfl | rfl <;> simp at ascii <;> omega
    split at member
    · simp only [List.mem_cons, List.not_mem_nil, or_false] at member
      rcases member with rfl | rfl | rfl <;> simp at ascii <;> omega
    · simp only [List.mem_cons, List.not_mem_nil, or_false] at member
      rcases member with rfl | rfl | rfl | rfl <;> simp at ascii <;> omega

theorem decodeEmpty : decode [] = some [] := decodeEncode []

theorem encodeCons (c : Char) (cs : Text) : encode (c :: cs) = String.utf8EncodeChar c ++ encode cs := rfl

theorem encodeSplit {a : Char} {b : UInt8} (ascii : b.toNat < 128) (single : String.utf8EncodeChar a = [b])
    {text : Text} {front back : Bytes} (same : encode text = front ++ b :: back) :
    ∃ t u, text = t ++ a :: u ∧ front = encode t ∧ back = encode u := by
  induction text generalizing front with
  | nil => simp [encode] at same
  | cons c cs ih =>
    rw [encodeCons] at same
    rcases List.append_eq_append_iff.mp same with ⟨excess, inside, rest⟩ | ⟨excess, inside, rest⟩
    · obtain ⟨t, u, rfl, rfl, rfl⟩ := ih rest
      exact ⟨c :: t, u, rfl, inside, rfl⟩
    · cases excess with
      | nil =>
        have none : encode cs = [] ++ b :: back := rest.symm
        obtain ⟨t, u, rfl, empty, rfl⟩ := ih none
        rw [List.append_nil] at inside
        exact ⟨c :: t, u, rfl, by rw [encodeCons, ← empty, List.append_nil, inside], rfl⟩
      | cons d excess =>
        obtain ⟨rfl, tail⟩ := List.cons.inj rest
        have read := asciiByte (c := c) ascii (by simp [inside])
        have meant := asciiByte (c := a) ascii (by simp [single])
        rw [read.2] at inside
        rcases List.append_eq_singleton_iff.mp inside.symm with ⟨rfl, excess⟩ | ⟨_, excess⟩
        · obtain rfl := (List.cons.inj excess).2
          exact ⟨[], cs, by rw [read.1, meant.1]; rfl, rfl, tail⟩
        · contradiction

theorem decodeSplit {a : Char} {b : UInt8} (ascii : b.toNat < 128) (single : String.utf8EncodeChar a = [b])
    (front back : Bytes) :
    decode (front ++ b :: back) =
      (decode front).bind fun t => (decode back).map fun u => t ++ a :: u := by
  ext text
  simp only [Option.bind_eq_some_iff, Option.map_eq_some_iff, decodeExact]
  constructor
  · intro same
    obtain ⟨t, u, rfl, rfl, rfl⟩ := encodeSplit ascii single same.symm
    exact ⟨t, rfl, u, rfl, rfl⟩
  · rintro ⟨t, rfl, u, rfl, rfl⟩
    rw [encodeAppend, encodeCons, single]
    rfl

theorem decodeFeed (front back : Bytes) : decode (front ++ Part.lineFeed :: back) =
    (decode front).bind fun t => (decode back).map fun u => t ++ '\n' :: u :=
  decodeSplit (by decide) (by decide) front back

theorem decodeReturn (front : Bytes) :
    decode (front ++ [Part.carriageReturn]) = (decode front).map fun t => t ++ ['\r'] := by
  rw [decodeSplit (a := '\r') (by decide) (by decide)]
  cases decode front <;> rfl

theorem feedFree {line : Bytes} {text : Text} (free : Part.lineFeed ∉ line)
    (decoded : decode line = some text) : '\n' ∉ text := by
  intro member
  obtain ⟨t, u, rfl⟩ := List.append_of_mem member
  rw [decodeExact.mp decoded, encodeAppend, encodeCons] at free
  exact free (by simp [String.utf8EncodeChar, Part.lineFeed])

end Utf8

namespace Prompt

def linesFrom (held : Bytes) : Bytes → List Bytes
  | [] => if held = [] then [] else [held]
  | b :: rest =>
    if b = Part.lineFeed then Front.lineBytes held true :: linesFrom [] rest
    else linesFrom (held ++ [b]) rest

def lines (bytes : Bytes) : List Bytes := linesFrom [] bytes

def reading (line : Bytes) : Except Fault Text := (Utf8.decode line).elim (.error .notText) .ok

theorem linesFromLast (held line : Bytes) (free : Part.lineFeed ∉ line) :
    linesFrom held line = if held ++ line = [] then [] else [held ++ line] := by
  induction line generalizing held with
  | nil => simp [linesFrom]
  | cons b rest ih =>
    obtain ⟨other, free⟩ := not_or.mp (mt List.mem_cons.mpr free)
    rw [linesFrom, if_neg (Ne.symm other), ih (held ++ [b]) free]
    simp

theorem linesFromFeed (held line rest : Bytes) (free : Part.lineFeed ∉ line) :
    linesFrom held (line ++ Part.lineFeed :: rest) = Front.lineBytes (held ++ line) true :: lines rest := by
  induction line generalizing held with
  | nil => simp [linesFrom, lines]
  | cons b more ih =>
    obtain ⟨other, free⟩ := not_or.mp (mt List.mem_cons.mpr free)
    rw [List.cons_append, linesFrom, if_neg (Ne.symm other), ih (held ++ [b]) free]
    simp

theorem linesLast {line : Bytes} (free : Part.lineFeed ∉ line) :
    lines line = if line = [] then [] else [line] := linesFromLast [] line free

theorem linesFeed {line : Bytes} (free : Part.lineFeed ∉ line) (rest : Bytes) :
    lines (line ++ Part.lineFeed :: rest) = Front.lineBytes line true :: lines rest :=
  linesFromFeed [] line rest free

theorem linesFree (bytes : Bytes) : ∀ line ∈ lines bytes, Part.lineFeed ∉ line := by
  induction bytes using lineInduction Part.lineFeed with
  | last line free =>
    rw [linesLast free]
    split
    · simp
    · exact List.forall_mem_singleton.mpr free
  | line line rest free ih =>
    rw [linesFeed free]
    refine List.forall_mem_cons.mpr ⟨fun member => free ?_, ih⟩
    unfold Front.lineBytes at member
    split at member
    · exact List.dropLast_subset _ member
    · exact member

theorem allStep {p q : Prompt} {result : Except Fault Text} (next : p.next = (some result, q)) :
    p.all = result :: q.all := by
  rw [all]
  split
  · rename_i ended
    simp [next] at ended
  · rename_i read
    rw [next] at read
    cases read
    rfl

theorem allEnd {p q : Prompt} (next : p.next = (none, q)) : p.all = [] := by
  rw [all]
  split
  · rfl
  · rename_i read
    simp [next] at read

def Stays (line : Bytes) : Prop := (Utf8.decode line).map Text.trim ≠ some "exit".toList

end Prompt
end LoxLexer
