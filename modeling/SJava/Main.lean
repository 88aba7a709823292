/-
The program: it looks up the source file that its arguments name, and prints the answer.
-/
import SJava.Command

namespace SJava

/-- What the file system holds at a path.  An answer does not tell why a file cannot be
read, so every such path counts as one that leads nowhere. -/
def lookUp (path : Text) : IO Lookup := do
  try
    return .regular (← IO.FS.readBinFile (String.ofList path))
  catch _ =>
    return .missing

def colorSettings : IO ColorSettings := do
  return {
    forced := ← IO.getEnv "CLICOLOR_FORCE"
    refused := ← IO.getEnv "NO_COLOR"
    onTerminal := ← IO.getEnv "CLICOLOR"
    isTerminal := ← (← IO.getStdout).isTty }

def answer (arguments : List String) : IO Response :=
  match Command.parse? (arguments.map String.toList) with
  | none => return Command.refusal
  | some c => do
    let settings ← colorSettings
    return c.respond settings.colored (← lookUp c.source)

end SJava

def main (arguments : List String) : IO UInt32 := do
  let response ← SJava.answer arguments
  IO.print (String.ofList response.stdout)
  IO.eprint (String.ofList response.stderr)
  return response.status.toUInt32
