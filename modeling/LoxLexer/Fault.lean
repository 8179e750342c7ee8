import LoxLexer.Text
/-! Why a run stops early: the source cannot be read, or the output cannot be written. -/
namespace LoxLexer

inductive Fault where
  | missing (path : Text)
  | isFolder
  | notFolder
  | nameTooLong
  | notText
  | sinkFull
  | failed (message : Text)
  deriving DecidableEq, Repr

def Fault.message : Fault → Text
  | missing path => "file does not seem to exist ".toList ++ path
  | isFolder => "Is a directory (os error 21)".toList
  | notFolder => "Not a directory (os error 20)".toList
  | nameTooLong => "File name too long (os error 36)".toList
  | notText => "stream did not contain valid UTF-8".toList
  | sinkFull => "device full".toList
  | failed message => message

end LoxLexer
