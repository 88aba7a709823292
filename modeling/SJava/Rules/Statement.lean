/-
The rules of declarations and assignments.  The clauses of a statement take effect one
after the other, so a later clause sees the earlier ones, and those before a faulty clause
keep their effect.
-/
import SJava.Line.Clause
import SJava.Rules.Value

namespace SJava

/-- The two walks over a program.  The survey declares the global variables and makes the
methods known, so that both can be used before the line that declares them; the inspection
follows the bodies of the methods. -/
inductive Pass where
  | survey
  | inspection
  deriving DecidableEq, Repr

namespace Env

/-- Declares the variable of one clause. -/
def declareClause (d : Declarator) (e : Env) (c : Clause) : Outcome Fault Env :=
  if Name.isReserved c.name then .fail e (.reservedWordMisuse c.name)
  else if e.declaresHere c.name then .fail e (.variableAlreadyDeclared c.name)
  else
    match c.value with
    | none =>
      if d.isFinal then .fail e (.uninitializedFinalDeclaration c.name)
      else e.declare c.name d.ty d.isFinal false
    | some v => .require e (e.checkValue d.ty v) (e.declare c.name d.ty d.isFinal true)

/-- Declares the variables of a line in the innermost frame.  The inspection passes over
the global declarations, which the survey has made. -/
def declareLine (pass : Pass) (e : Env) (line : Text) : Outcome Fault Env :=
  if e.isGlobal && pass = .inspection then .ok e
  else
    match Declaration.parse line with
    | .error fault => .fail e fault
    | .ok d =>
      match Clause.firstRepeated [] d.clauses with
      | some x => .fail e (.duplicateInStatement x)
      | none => Outcome.each (declareClause d.declarator) e d.clauses

/-- Assigns the value of one clause of `line`.  A final variable has its value from its
declaration. -/
def assignClause (line : Text) (e : Env) (c : Clause) : Outcome Fault Env :=
  match e.find? c.name with
  | none => .fail e (.variableNotDeclared c.name)
  | some b =>
    if b.info.isFinal then .fail e (.finalReassignment c.name)
    else
      match c.value with
      | none => .fail e (.assignmentSyntax line)
      | some v => .require e (e.checkValue b.info.ty v) (e.assign c.name)

/-- Assigns the values of a line. -/
def assignLine (e : Env) (line : Text) : Outcome Fault Env :=
  match Assignment.parse? line with
  | none => .fail e (.assignmentSyntax line)
  | some cs =>
    match Clause.firstRepeated [] cs with
    | some x => .fail e (.duplicateInStatement x)
    | none => Outcome.each (assignClause line) e cs

end Env
end SJava
