/-
The types of values.  `unknown` is the type of a text that is no literal; no variable has
it.
-/
import SJava.Fault

namespace SJava

inductive Ty where
  | int
  | double
  | boolean
  | string
  | char
  | unknown
  deriving DecidableEq, Repr

namespace Ty

/-- Every type, in the order in which lists of types are given. -/
def all : List Ty := [int, double, boolean, string, char, unknown]

/-- The types a variable can be declared with. -/
def declarable : List Ty := [int, double, boolean, char, string]

/-- The word for a type. -/
def keyword : Ty → Text
  | int => "int".toList
  | double => "double".toList
  | boolean => "boolean".toList
  | string => "String".toList
  | char => "char".toList
  | unknown => "unknown".toList

/-- The type that a declaration names by the word `w`. -/
def ofKeyword? (w : Text) : Option Ty := declarable.find? fun t => t.keyword = w

/-- The type that a word names. -/
def parse (w : Text) : Except Fault Ty :=
  match ofKeyword? w with
  | none => .error (.unknownType w)
  | some t => .ok t

/-- Whether a variable of type `target` takes a value of the given type: an `int` widens
to a `double`, and either of them to a `boolean`. -/
def accepts (target value : Ty) : Bool :=
  match target with
  | unknown => false
  | double => value = double || value = int
  | boolean => value = boolean || value = int || value = double
  | int | string | char => value = target

/-- Whether a variable of this type can stand in a condition. -/
def isConditionOperand (t : Ty) : Bool := boolean.accepts t

theorem ofKeyword?_keyword {t : Ty} (h : t ∈ declarable) : ofKeyword? t.keyword = some t := by
  simp only [declarable, List.mem_cons, List.not_mem_nil, or_false] at h
  rcases h with rfl | rfl | rfl | rfl | rfl <;> rfl

theorem parse_keyword {t : Ty} (h : t ∈ declarable) : parse t.keyword = .ok t := by
  rw [parse, ofKeyword?_keyword h]

end Ty
end SJava
