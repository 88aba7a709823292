/-
What the verifier knows of a name: variables, the parameters of a method, and signatures.
-/
import SJava.Ty

namespace SJava

/-- What a declaration fixes about a variable. -/
structure Variable where
  ty : Ty
  isFinal : Bool
  isGlobal : Bool
  deriving DecidableEq, Repr

/-- A name that stands for a variable, and whether the variable holds a value yet. -/
structure Binding where
  name : Text
  info : Variable
  isInitialized : Bool
  deriving DecidableEq, Repr

structure Parameter where
  name : Text
  ty : Ty
  isFinal : Bool
  deriving DecidableEq, Repr

/-- How a method is called. -/
structure Signature where
  name : Text
  parameters : List Parameter
  deriving DecidableEq, Repr

def Signature.arity (m : Signature) : Nat := m.parameters.length

end SJava
