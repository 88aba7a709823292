/-
Literals, the values that are written out.  Numbers take an optional sign and the decimal
digits of any script; strings and characters hold anything but their own quote.
-/
import SJava.Text.Word
import SJava.Ty

namespace SJava
namespace Literal

open Text

/-- A number without its sign. -/
def unsigned : Text → Text
  | '+' :: s => s
  | '-' :: s => s
  | s => s

/-- Digits, of which there is at least one. -/
def isInt (v : Text) : Bool :=
  !(unsigned v).isEmpty && (unsigned v).all isDigit

/-- Digits with at most one point, of which at least one is a digit. -/
def isDouble (v : Text) : Bool :=
  let whole := (unsigned v).takeWhile isDigit
  match (unsigned v).dropWhile isDigit with
  | [] => !whole.isEmpty
  | c :: fraction => c == '.' && fraction.all isDigit && !(whole.isEmpty && fraction.isEmpty)

/-- A text between double quotes that holds none. -/
def isString : Text → Bool
  | [] => false
  | c :: s => c == '"' && s.dropWhile (· != '"') == ['"']

/-- One character between single quotes that is none itself. -/
def isChar : Text → Bool
  | [a, c, b] => a == '\'' && c != '\'' && b == '\''
  | _ => false

/-- The two constants of type `boolean`. -/
def isBoolean (v : Text) : Bool := v == "true".toList || v == "false".toList

/-- The type of a literal, `unknown` for any other text.  A number without a point is an
`int`. -/
def type (v : Text) : Ty :=
  if isString v then .string
  else if isInt v then .int
  else if isChar v then .char
  else if isBoolean v then .boolean
  else if isDouble v then .double
  else .unknown

/-- Whether a literal can be given to a variable of type `target`. -/
def fits (v : Text) : Ty → Bool
  | .string => isString v
  | .int => isInt v
  | .char => isChar v
  | .double => isDouble v
  | .boolean => isBoolean v || isDouble v
  | .unknown => false

/-! ## The grammars of literals -/

theorem isString_iff {v : Text} : isString v ↔ ∃ s, '"' ∉ s ∧ v = '"' :: (s ++ ['"']) := by
  constructor
  · intro h
    cases v with
    | nil => simp [isString] at h
    | cons c t =>
      simp only [isString, Bool.and_eq_true, beq_iff_eq] at h
      obtain ⟨rfl, ht⟩ := h
      refine ⟨t.takeWhile (· != '"'), fun hm => ?_, ?_⟩
      · have ha : (t.takeWhile (· != '"')).all (· != '"') := List.all_takeWhile
        simpa using List.all_eq_true.mp ha _ hm
      · rw [← ht, List.takeWhile_append_dropWhile]
  · rintro ⟨s, hs, rfl⟩
    have hd : (s ++ ['"']).dropWhile (· != '"') = ['"'] := by
      rw [List.dropWhile_append_of_pos]
      · simp
      · intro a ha
        have hne : a ≠ '"' := fun h => hs (h ▸ ha)
        simpa using hne
    simp [isString, hd]

theorem isChar_iff {v : Text} : isChar v ↔ ∃ c, c ≠ '\'' ∧ v = ['\'', c, '\''] := by
  constructor
  · intro h
    unfold isChar at h
    split at h
    · next a c b =>
      simp only [Bool.and_eq_true, beq_iff_eq, bne_iff_ne] at h
      obtain ⟨⟨rfl, hc⟩, rfl⟩ := h
      exact ⟨c, hc, rfl⟩
    · simp at h
  · rintro ⟨c, hc, rfl⟩
    simp [isChar, hc]

/-- A number without a point is a number. -/
theorem isDouble_of_isInt {v : Text} (h : isInt v) : isDouble v := by
  simp only [isInt, Bool.and_eq_true, List.all_eq_true] at h
  have hd : (unsigned v ++ []).dropWhile isDigit = [] := by
    rw [List.dropWhile_append_of_pos h.2]
    rfl
  rw [List.append_nil] at hd
  have ht : (unsigned v).takeWhile isDigit ++ (unsigned v).dropWhile isDigit = unsigned v :=
    List.takeWhile_append_dropWhile
  rw [hd, List.append_nil] at ht
  simp [isDouble, ht, hd, h.1]

theorem isInt_eq_false {v : Text} (h : isDouble v = false) : isInt v = false := by
  rw [Bool.eq_false_iff]
  intro hi
  rw [isDouble_of_isInt hi] at h
  exact absurd h (by decide)

end Literal
end SJava
