import ArgumentDiagram.Command.Run
import ArgumentDiagram.Command.Usage

/-!
The command in the world: its files, its streams and its exit code.
-/

open ArgumentDiagram.Command

namespace ArgumentDiagram.Command

/-- Codes of errors from opening a file are negated. -/
def FileError.ofError (e : IO.Error) : FileError :=
  let coded (code known : UInt32) : Bool := code = known || code + known = 0
  match e with
  | .noFileOrDirectory .. => .notFound
  | .inappropriateType _ code _ => if coded code 20 then .notADirectory else .isADirectory
  | .invalidArgument _ code detail => if coded code 36 then .nameTooLong else .other detail
  | .resourceExhausted _ code detail => if coded code 28 then .noSpace else .other detail
  | e => .other (toString e)

/-- The result of an action, with its error as a file error. -/
def caught {β : Type} (action : IO (Except FileError β)) : IO (Except FileError β) := do
  try action
  catch e => return .error (.ofError e)

/-- Everything up to the end of a stream. -/
partial def readToEnd (stream : IO.FS.Stream) (before : ByteArray) : IO ByteArray := do
  let bytes ← stream.read 65536
  if bytes.isEmpty then return before
  else readToEnd stream (before ++ bytes)

def world : Host IO where
  read path := caught do return decode (← IO.FS.readBinFile path)
  readInput := caught do return decode (← readToEnd (← IO.getStdin) .empty)
  write path text := caught do
    IO.FS.withFile path .write fun file => do
      file.putStr text
      file.flush
    return .ok ()
  writeBuffered path text := caught do
    IO.FS.writeFile path text
    return .ok ()
  print text := IO.print text

end ArgumentDiagram.Command

/-- No fonts are at hand, so text is measured by the average width of a glyph. -/
def main (arguments : List String) : IO UInt32 := do
  match Arguments.ofList arguments with
  | .error stop =>
    match stop with
    | .help => IO.print help
    | .version => IO.println version
    | .misuse => IO.eprintln misuse
    return stop.exitCode.toUInt32
  | .ok a =>
    match ← (run world .empty a).run with
    | .ok () => return 0
    | .error failure =>
      IO.eprintln ("error: " ++ failure.message?.getD "malformed document")
      return 1
