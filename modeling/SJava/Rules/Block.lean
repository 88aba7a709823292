/-
The rules of blocks.  A condition opens a block if each of its operands can be tested; a
closing brace ends the innermost block, and that of a method only after a return.
-/
import SJava.Line.Condition
import SJava.Rules.Value

namespace SJava
namespace Env

/-- Checks one operand of a condition. -/
def checkOperand (e : Env) : Operand → Except Fault Unit
  | .literal => .ok ()
  | .name x =>
    match e.find? x with
    | none => .error (.variableNotDeclared x)
    | some b =>
      if !b.info.ty.isConditionOperand then
        .error (.typeIncompatible Ty.boolean.keyword b.info.ty.keyword)
      else if !b.isInitialized then .error (.variableUninitializedUse x)
      else .ok ()

/-- Checks the operands of a condition from left to right. -/
def checkOperands (e : Env) : List Operand → Except Fault Unit
  | [] => .ok ()
  | o :: os =>
    match e.checkOperand o with
    | .error fault => .error fault
    | .ok _ => checkOperands e os

/-- Opens the block of a condition. -/
def openBlock (e : Env) (line : Text) : Outcome Fault Env :=
  if e.isGlobal then .fail e .conditionOutsideMethod
  else
    match Condition.operands? (Condition.text line) with
    | none => .fail e (.conditionSyntax (Condition.text line))
    | some os => .require e (e.checkOperands os) (.ok e.push)

/-- Closes the innermost block.  `afterReturn` says whether the statement before was a
return. -/
def closeBlock (afterReturn : Bool) (e : Env) : Outcome Fault Env :=
  if !afterReturn && e.isMethodBody then .fail e .missingReturnBeforeBlockEnd else e.pop

end Env
end SJava
