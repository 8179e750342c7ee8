import LoxLexer.Text
/-! The Unicode property Default_Ignorable_Code_Point, of version 17: characters that are shown as
nothing by whoever has no use for them. Besides joiners and selectors it has the Hangul fillers,
which are letters by category. -/
namespace LoxLexer.Text

def defaultIgnorable : List (Nat × Nat) :=
  [(0xad, 0xad), (0x34f, 0x34f), (0x61c, 0x61c), (0x115f, 0x1160), (0x17b4, 0x17b5),
   (0x180b, 0x180f), (0x200b, 0x200f), (0x202a, 0x202e), (0x2060, 0x206f), (0x3164, 0x3164),
   (0xfe00, 0xfe0f), (0xfeff, 0xfeff), (0xffa0, 0xffa0), (0xfff0, 0xfff8), (0x1bca0, 0x1bca3),
   (0x1d173, 0x1d17a), (0xe0000, 0xe0fff)]

end LoxLexer.Text
