/-
Names.  A name begins with a letter of ASCII and goes on with word characters.  A variable
may also begin with an underscore, which alone is no name.
-/
import SJava.Text.Word
import SJava.Ty

namespace SJava
namespace Name

open Text

/-- The names of methods and of parameters. -/
def isMethod : Text → Bool
  | [] => false
  | c :: s => c.isAlpha && s.all isWord

/-- The names of variables. -/
def isVariable : Text → Bool
  | [] => false
  | c :: s => (c.isAlpha || (c == '_' && !s.isEmpty)) && s.all isWord

/-- The words of the language that are not names of its programs. -/
def reserved : List Text :=
  Ty.declarable.map Ty.keyword ++
    ["void".toList, "if".toList, "while".toList, "return".toList, "final".toList]

def isReserved (w : Text) : Bool := reserved.contains w

/-- The names of methods are among those of variables. -/
theorem isVariable_of_isMethod {x : Text} (h : isMethod x) : isVariable x := by
  cases x with
  | nil => exact h
  | cons c s =>
    simp only [isMethod, Bool.and_eq_true] at h
    simp [isVariable, h.1, h.2]

/-- A name consists of word characters. -/
theorem all_isWord_of_isVariable {x : Text} (h : isVariable x) : x.all isWord := by
  cases x with
  | nil => rfl
  | cons c s =>
    simp only [isVariable, Bool.and_eq_true, Bool.or_eq_true, beq_iff_eq] at h
    obtain ⟨hc, hs⟩ := h
    have hw : isWord c := by
      rcases hc with hc | ⟨rfl, _⟩
      · simp [isWord, Char.isAlphanum, hc]
      · rfl
    simp only [List.all_cons, hw, hs, Bool.and_self]

end Name
end SJava
