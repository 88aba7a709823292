/-
Where a value may stand.  A text that is a literal is judged by its type; any other text
is taken for the name of a variable, which must be declared and hold a value.  A value
that is assigned may widen to the type of its target.  An argument of a call may do so
only if it is a literal.
-/
import SJava.Env
import SJava.Literal
import SJava.Name

namespace SJava
namespace Env

/-- Checks a value that is given to a variable of type `target`. -/
def checkValue (e : Env) (target : Ty) (v : Text) : Except Fault Unit :=
  if Literal.type v ≠ .unknown then
    if Literal.fits v target then .ok ()
    else .error (.typeIncompatible target.keyword (Literal.type v).keyword)
  else if !Name.isVariable v then .error (.assignmentSyntax v)
  else
    match e.find? v with
    | none => .error (.variableNotDeclared v)
    | some b =>
      if !b.isInitialized then .error (.variableUninitializedUse v)
      else if target.accepts b.info.ty then .ok ()
      else .error (.typeIncompatible target.keyword b.info.ty.keyword)

/-- Checks a value that is passed to a parameter of the given type. -/
def checkArgument (e : Env) (expected : Ty) (v : Text) : Except Fault Unit :=
  if Literal.type v ≠ .unknown then
    if Literal.fits v expected then .ok ()
    else .error (.methodArgumentTypeMismatch expected.keyword v)
  else
    match e.find? v with
    | none => .error (.variableNotDeclared v)
    | some b =>
      if !b.isInitialized then .error (.variableUninitializedUse v)
      else if b.info.ty = expected then .ok ()
      else .error (.methodArgumentTypeMismatch expected.keyword b.info.ty.keyword)

end Env
end SJava
