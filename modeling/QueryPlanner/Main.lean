import QueryPlanner.Command.Run
import QueryPlanner.Session.Identifier

/-!
# The program

Reads files and the standard input for a command, and writes what the command leaves behind.
-/

namespace QueryPlanner.Program

/-- The number and the wording of an error of the system. -/
def numberAndWording? : IO.Error → Option (UInt32 × String)
  | .alreadyExists _ n s | .otherError n s | .resourceBusy n s | .resourceVanished n s
  | .unsupportedOperation n s | .hardwareFault n s | .unsatisfiedConstraints n s
  | .illegalOperation n s | .protocolError n s | .timeExpired n s | .interrupted _ n s
  | .noFileOrDirectory _ n s | .invalidArgument _ n s | .permissionDenied _ n s
  | .resourceExhausted _ n s | .inappropriateType _ n s | .noSuchThing _ n s => some (n, s)
  | .unexpectedEof | .userError _ => none

/-- How messages speak of an error of the system.  Its number may be given with a minus sign. -/
def reason (e : IO.Error) : String :=
  match numberAndWording? e with
  | none => toString e
  | some (n, s) =>
      let number := n.toInt32.toInt.natAbs
      s.capitalize ++ " (os error " ++ toString number ++ ")"

/-- A result, or the reason why there is none. -/
def attempt {α : Type} (action : IO α) : IO (Except String α) := do
  match ← action.toBaseIO with
  | .ok a => return .ok a
  | .error e => return .error (reason e)

/-- Everything that is left in a stream. -/
partial def rest (stream : IO.FS.Stream) (before : ByteArray) : IO ByteArray := do
  let chunk ← stream.read 65536
  if chunk.isEmpty then return before
  rest stream (before ++ chunk)

/-- The files and the standard input of the process, and a new name for its session. -/
def surroundings : IO (Surroundings IO) := do
  let random ← IO.getRandomBytes 16
  return {
    file := fun path => attempt do return (← IO.FS.readBinFile path).toList
    input := attempt do return (← rest (← IO.getStdin) .empty).toList
    session := SessionIdentifier.ofBytes random.toList }

end QueryPlanner.Program

/-- Runs the program. -/
def main (args : List String) : IO UInt32 := do
  let around ← QueryPlanner.Program.surroundings
  let result ← QueryPlanner.Invocation.result around (.ofArguments args)
  let errors ← IO.getStderr
  for message in result.messages do errors.putStrLn message
  let output ← IO.getStdout
  output.putStr result.output
  output.flush
  return result.exitCode.toUInt32
