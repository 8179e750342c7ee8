import LoxLexer.Program
import LoxLexer.Main.PlainSettings
/-! The program at its keyboard: arguments, the setting of the log, files and lines, handed to its turns, and what it
has written, passed on after each of them. -/
namespace LoxLexer.Main

def put (stream : IO.FS.Stream) (text : Text) : IO Unit := do
  stream.write (Utf8.encode text).toByteArray
  stream.flush

/-- The system gives its error numbers with either sign. -/
def faultOf (path : Text) : IO.Error → Fault
  | .noFileOrDirectory _ _ _ => .missing path
  | .inappropriateType _ code details =>
    if code = 21 ∨ code = 0 - 21 then .isFolder
    else if code = 20 ∨ code = 0 - 20 then .notFolder
    else .failed details.toList
  | .invalidArgument _ code details =>
    if code = 36 ∨ code = 0 - 36 then .nameTooLong else .failed details.toList
  | error => .failed error.toString.toList

def readFile (path : Text) : IO (Except Fault Bytes) := do
  try
    let content ← IO.FS.readBinFile (String.ofList path)
    return .ok content.data.toList
  catch error => return .error (faultOf path error)

partial def readLine (input : IO.FS.Stream) (held : ByteArray) : IO ByteArray := do
  let next ← input.read 1
  if next.isEmpty then return held
  else if next.data[0]? = some Part.lineFeed then return held ++ next
  else readLine input (held ++ next)

def readPart (input : IO.FS.Stream) : IO Part := do
  try
    let line ← readLine input ByteArray.empty
    return .chunk line.data.toList
  catch error => return .failure error.toString.toList

def pass (out : Text) (err : List Entry) : IO Unit := do
  put (← IO.getStderr) (err.flatMap Entry.text)
  put (← IO.getStdout) out

def settle (outcome : Outcome) : IO Nat := do
  pass outcome.out outcome.entries
  match outcome.fault with
  | none => return outcome.exit
  | some fault =>
    put (← IO.getStderr) ("Error: ".toList ++ fault.message ++ ['\n'])
    return outcome.exit

partial def proceed (filter : Filter) : Option (Except Outcome Program) → IO Nat
  | none => throw (IO.userError "no answer")
  | some (.error outcome) => settle outcome
  | some (.ok p) => do
    pass p.out p.err
    let prompt := Prompt.ofParts [← readPart (← IO.getStdin)]
    proceed filter (p.flushed.turn filter prompt.next.1)

def run (arguments : List Text) : IO Nat := do
  let setting ← IO.getEnv "RUST_LOG"
  let filter := Settings.plain.filter (setting.map String.toList)
  let content ← match Command.ofArguments arguments with
    | .script path => readFile path
    | _ => pure (.ok [])
  proceed filter (Program.opened filter arguments fun _ => content)

end LoxLexer.Main

def main (arguments : List String) : IO UInt32 := do
  let exit ← LoxLexer.Main.run (arguments.map String.toList)
  return exit.toUInt32
