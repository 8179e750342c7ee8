import LoxLexer.Log
/-! Settings of the log. What a setting means is for a library to say, which may know far more of them than levels;
of it the program asks for a filter, and for the one of warnings where it is given no setting that can be read. -/
namespace LoxLexer

/-- Strictly, a setting with a fault in it cannot be read; leniently, what is at fault is left out. -/
structure Settings where
  strict : Text → Option Filter
  lenient : Text → Filter

namespace Settings

def filter (s : Settings) (setting : Option Text) : Filter :=
  (setting.bind s.strict).getD (s.lenient "warn".toList)

/-- All that is relied on: the word for a limit, and nothing with it, is read as that limit. -/
structure KnowLevels (s : Settings) : Prop where
  strict : ∀ limit : Limit, s.strict limit.word = some limit.filter
  lenient : ∀ limit : Limit, s.lenient limit.word = limit.filter

theorem limitFilter {s : Settings} (known : s.KnowLevels) (limit : Limit) :
    s.filter (some limit.word) = limit.filter := by
  rw [filter, Option.bind_some, known.strict, Option.getD_some]

theorem defaultFilter {s : Settings} (known : s.KnowLevels) : s.filter none = (Limit.upTo .warn).filter :=
  known.lenient (.upTo .warn)

end Settings
end LoxLexer
