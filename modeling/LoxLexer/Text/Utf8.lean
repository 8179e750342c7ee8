import LoxLexer.Text
/-! UTF-8. Every text has exactly one encoding, and decoding accepts encodings only: there is no
replacement character, so bytes that encode nothing stay visible as `none`. -/
namespace LoxLexer.Utf8

def encode (text : Text) : Bytes := text.flatMap String.utf8EncodeChar

def decode (bytes : Bytes) : Option Text := bytes.toByteArray.utf8Decode?.map Array.toList

theorem encodeAppend (a b : Text) : encode (a ++ b) = encode a ++ encode b := by
  simp [encode]

theorem decodeEncode (text : Text) : decode (encode text) = some text := by
  have known := List.utf8Decode?_utf8Encode (l := text)
  simp only [List.utf8Encode] at known
  simp [decode, encode, known]

theorem decodeExact {bytes : Bytes} {text : Text} :
    decode bytes = some text ↔ bytes = encode text := by
  constructor
  · intro found
    obtain ⟨chars, read, rfl⟩ := Option.map_eq_some_iff.mp found
    have known := ByteArray.utf8Encode_get_utf8Decode? (b := bytes.toByteArray) (h := by simp [read])
    simp only [read, Option.get_some, List.utf8Encode] at known
    have same := congrArg (fun b => b.data.toList) known
    simpa [encode] using same.symm
  · rintro rfl
    exact decodeEncode text

end LoxLexer.Utf8
