import LoxLexer.Settings
/-! Settings that can be read without a library: those that are a word or a number for a limit, and no others. -/
namespace LoxLexer.Settings

def ofLimits (setting : Text) : Option Filter :=
  (Limit.all.find? fun limit => setting.map Char.toLower == limit.word || setting == Text.ofNat limit.rank).map
    Limit.filter

def plain : Settings := ⟨ofLimits, fun setting => (ofLimits setting).getD (Limit.upTo .error).filter⟩

theorem plainKnowLevels : plain.KnowLevels := by
  have known (limit : Limit) : ofLimits limit.word = some limit.filter := by
    cases limit with
    | off => rfl
    | upTo level => cases level <;> rfl
  exact ⟨known, fun limit => by simp only [plain, known, Option.getD_some]⟩

end LoxLexer.Settings
