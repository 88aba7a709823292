/-
The rules of methods: their headers, which stand outside every block, and their calls and
returns, which stand inside one.
-/
import SJava.Line.Category
import SJava.Rules.Statement

namespace SJava
namespace Env

/-- Handles the header of a method.  The survey makes the method known, and the inspection
opens its body. -/
def headerLine (pass : Pass) (e : Env) (line : Text) : Outcome Fault Env :=
  match Header.parse? line with
  | none => .fail e (.unknownLineSyntax line)
  | some h =>
    if !e.isGlobal then .fail e (.methodDeclarationOutsideGlobal h.name)
    else
      match pass with
      | .inspection => e.enterMethod h.name
      | .survey =>
        match h.signature with
        | .error fault => .fail e fault
        | .ok s => e.addMethod s

/-- Checks the arguments of a call against the parameters in order. -/
def checkArguments (e : Env) : List Parameter → List Text → Except Fault Unit
  | p :: ps, v :: vs =>
    match e.checkArgument p.ty v with
    | .error fault => .error fault
    | .ok _ => checkArguments e ps vs
  | _, _ => .ok ()

/-- Checks the call of a method. -/
def checkCall (e : Env) (line : Text) : Except Fault Unit :=
  match Call.parse? line with
  | none => .error (.unknownLineSyntax line)
  | some c =>
    if e.isGlobal then .error (.methodCallOutsideMethod c.method)
    else
      match e.signature c.method with
      | .error fault => .error fault
      | .ok s =>
        let arguments := Text.items c.arguments
        if arguments.any (·.isEmpty) then .error (.emptyArgument c.method)
        else if arguments.length ≠ s.arity then
          .error (.methodArityMismatch c.method s.arity arguments.length)
        else checkArguments e s.parameters arguments

/-- Checks a return. -/
def checkReturn (e : Env) (line : Text) : Except Fault Unit :=
  if !isReturn line then .error (.unknownLineSyntax line)
  else if e.isGlobal then .error .returnOutsideMethod
  else .ok ()

end Env
end SJava
