import RelTrace.Command.Run

/-!
# The program

The command on the real files, with its notes on the standard error stream.
-/

namespace RelTrace

/-- The program, which knows the least level of the notes that it shows. -/
abbrev Program := ReaderT Nat IO

namespace Program

/-- How much a note of a level matters. -/
def rank : Level → Nat
  | .trace => 0
  | .debug => 1
  | .info => 2
  | .warn => 3

/-- The word for a level. -/
def word : Level → String
  | .trace => "TRACE"
  | .debug => "DEBUG"
  | .info => "INFO"
  | .warn => "WARN"

/-- The least rank of the notes shown; it falls by one for each time that more is asked for. -/
def leastRank (verbosity : Nat) : Nat := max 1 (3 - verbosity)

/-- The reason why a file operation failed. -/
def fileError : IO.Error → FileError
  | .noFileOrDirectory _ _ _ => .notFound
  | .permissionDenied _ code details
  | .inappropriateType _ code details
  | .invalidArgument _ code details
  | .alreadyExists _ code details
  | .resourceExhausted _ code details
  | .noSuchThing _ code details
  | .interrupted _ code details
  | .resourceBusy code details
  | .resourceVanished code details
  | .unsupportedOperation code details
  | .hardwareFault code details
  | .unsatisfiedConstraints code details
  | .illegalOperation code details
  | .protocolError code details
  | .timeExpired code details
  | .otherError code details => .system code.toNat details
  | .unexpectedEof
  | .userError _ => .notText

instance : Host Program where
  readFile path := do
    match ← (IO.FS.readFile path).toBaseIO with
    | .ok text => return .ok text
    | .error e => return .error (fileError e)
  writeFile path text := do
    match ← (IO.FS.writeFile path text).toBaseIO with
    | .ok () => return .ok ()
    | .error e => return .error (fileError e)
  takeNote n := do
    if (← read) ≤ rank n.level then IO.eprintln ("[" ++ word n.level ++ "] " ++ n.text)

/-- Runs the command with some arguments. -/
def run (arguments : List String) : IO Command.Outcome :=
  match Options.read? arguments with
  | some o => ReaderT.run (Command.perform o : Program Command.Outcome) (leastRank o.verbosity)
  | none => return Command.misuse

end Program

end RelTrace

/-- Runs the command with the arguments of the program. -/
def main (arguments : List String) : IO UInt32 := do
  let outcome ← RelTrace.Program.run arguments
  IO.print outcome.output
  IO.eprint outcome.errors
  return outcome.code.toUInt32
