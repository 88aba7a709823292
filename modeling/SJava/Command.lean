/-
The command line: one source file, and an option that turns colours off.  The answer is
`0` for a legal program, `1` for an illegal one and `2` where there is no program to look
at, both printed and as the status.
-/
import SJava.Report.Diagnostic
import SJava.Source.Lookup

namespace SJava

/-- What is asked for. -/
structure Command where
  source : Text
  noColor : Bool
  deriving DecidableEq, Repr

/-- What is printed, and the status. -/
structure Response where
  stdout : Text
  stderr : Text
  status : Nat
  deriving DecidableEq, Repr

namespace Command

/-- Takes an argument for the source, which must be the only one and not empty. -/
def withSource? (source : Option Text) (argument : Text) : Option Text :=
  if source.isSome || argument.isEmpty then none else some argument

/-- Reads arguments of which none is an option. -/
def parseSources? (source : Option Text) (noColor : Bool) : List Text → Option Command
  | [] => source.map fun s => ⟨s, noColor⟩
  | a :: rest => (withSource? source a).bind fun s => parseSources? (some s) noColor rest

/-- Reads arguments, among them options up to the argument `--`. -/
def parseFrom? (source : Option Text) (noColor : Bool) : List Text → Option Command
  | [] => source.map fun s => ⟨s, noColor⟩
  | a :: rest =>
    if a = "--".toList then parseSources? source noColor rest
    else if a = "--no-color".toList then
      if noColor then none else parseFrom? source true rest
    else if a.head? = some '-' ∧ a ≠ ['-'] then none
    else (withSource? source a).bind fun s => parseFrom? (some s) noColor rest

def parse? (arguments : List Text) : Option Command := parseFrom? none false arguments

/-- The answer to a command, when `found` is what its path leads to. -/
def respond (c : Command) (colored : Bool) (found : Lookup) : Response :=
  let colored := colored && !c.noColor
  match Source.verify c.source found with
  | .ok none => ⟨"0\n".toList, [], 0⟩
  | .ok (some d) => ⟨d.render colored c.source found.text ++ "1\n".toList, [], 1⟩
  | .error fault =>
    let title := Style.boldRed.paint colored "Error".toList
    ⟨"2\n".toList, title ++ ": ".toList ++ fault.message.toList ++ ['\n'], 2⟩

/-- The answer to arguments that are no command. -/
def refusal : Response :=
  ⟨[], "error: expected [--no-color] <SOURCE>\n".toList, 2⟩

/-- The answer to arguments, when `lookup` tells what is found at a path. -/
def answer (arguments : List Text) (colored : Bool) (lookup : Text → Lookup) : Response :=
  match parse? arguments with
  | none => refusal
  | some c => c.respond colored (lookup c.source)

end Command
end SJava
