/-
A frame holds the variables of one block.  A block declares a name at most once, so a name
has at most one binding in a frame, and giving the variable a value changes that binding
where it stands.
-/
import SJava.Env.Symbol
import SJava.Fault
import SJava.Outcome

namespace SJava

/-- The variables of one block.  `parent` is the position of the enclosing frame, counted
from the global frame, which has none. -/
structure Frame where
  parent : Option Nat
  bindings : List Binding
  deriving DecidableEq, Repr

namespace Frame

def empty (parent : Option Nat) : Frame := ⟨parent, []⟩

def find? (f : Frame) (x : Text) : Option Binding := f.bindings.find? fun b => b.name = x

def declares (f : Frame) (x : Text) : Bool := (f.find? x).isSome

/-- Adds a variable, whose name must be new to the frame. -/
def declare (f : Frame) (x : Text) (v : Variable) (isInitialized : Bool) : Outcome Fault Frame :=
  if f.declares x then .fail f (.variableAlreadyDeclared x)
  else .ok { f with bindings := ⟨x, v, isInitialized⟩ :: f.bindings }

/-- Records that the variable `x` holds a value. -/
def assign (f : Frame) (x : Text) : Frame :=
  { f with bindings := f.bindings.map fun b =>
      if b.name = x then { b with isInitialized := true } else b }

/-- Whether the frame has a variable `x` that still lacks a value. -/
def awaits (f : Frame) (x : Text) : Bool := (f.find? x).any fun b => !b.isInitialized

/-! ## Operations seen through `find?` -/

@[simp] theorem find?_empty (parent : Option Nat) (x : Text) : (empty parent).find? x = none := rfl

theorem name_of_find? {f : Frame} {x : Text} {b : Binding} (h : f.find? x = some b) :
    b.name = x := by
  simpa using List.find?_some h

theorem declare_of_declares {f : Frame} {x : Text} (h : f.declares x) (v : Variable) (i : Bool) :
    f.declare x v i = .fail f (.variableAlreadyDeclared x) := by
  simp [declare, h]

/-- A new variable is found under its name. -/
theorem find?_declare_self {f : Frame} {x : Text} (h : f.declares x = false) (v : Variable)
    (i : Bool) : (f.declare x v i).state.find? x = some ⟨x, v, i⟩ := by
  simp [declare, h, Outcome.ok, find?]

/-- A declaration leaves all other names alone. -/
theorem find?_declare_of_ne {f : Frame} {x y : Text} (h : y ≠ x) (v : Variable) (i : Bool) :
    (f.declare x v i).state.find? y = f.find? y := by
  by_cases hx : f.declares x
  · simp [declare, hx, Outcome.fail]
  · simp [declare, hx, Outcome.ok, find?, Ne.symm h]

/-- A value changes nothing about a variable but that it holds one. -/
theorem find?_assign_self (f : Frame) (x : Text) :
    (f.assign x).find? x = (f.find? x).map fun b => { b with isInitialized := true } := by
  simp only [find?, assign]
  induction f.bindings with
  | nil => rfl
  | cons b bs ih =>
    by_cases h : b.name = x
    · simp [h]
    · simpa [h] using ih

theorem find?_assign_of_ne {f : Frame} {x y : Text} (h : y ≠ x) :
    (f.assign x).find? y = f.find? y := by
  simp only [find?, assign]
  induction f.bindings with
  | nil => rfl
  | cons b bs ih =>
    by_cases hx : b.name = x
    · have hy : ¬ x = y := Ne.symm h
      simpa [hx, hy] using ih
    · by_cases hy : b.name = y
      · simp [hy, h]
      · simpa [hx, hy] using ih

end Frame
end SJava
