/-
Literals and the types that take them.

Whether a literal can be given to a variable is decided by the grammars of literals, type by type
(`Literal.fits`).  Whether a variable can be given to another is decided by their types
(`Ty.accepts`).  The two agree: a literal fits exactly the types that accept its own
(`Literal.fits_iff_accepts_type`).  An `int` is a `double` by its grammar, and apart from that no
text is a literal of two types, since the first character tells strings, characters, constants and
numbers from each other.  It also tells them from names, of which only the two constants are
literals.
-/
import SJava.Proofs.Reading

namespace SJava

open Text

/-- No variable takes a text that is no literal. -/
theorem Ty.accepts_unknown (t : Ty) : t.accepts .unknown = false := by
  cases t <;> rfl

namespace Literal

variable {v : Text} {t u : Ty}

/-! ## The type of a literal -/

theorem type_of_isString (h : isString v) : type v = .string := by
  simp [type, h]

theorem isString_eq_false_of_isDouble (h : isDouble v) : isString v = false := by
  rw [Bool.eq_false_iff]
  intro hs
  obtain ⟨s, _, rfl⟩ := isString_iff.mp hs
  rw [isDouble_cons_quote (Or.inl rfl)] at h
  exact absurd h (by decide)

theorem isChar_eq_false_of_isDouble (h : isDouble v) : isChar v = false := by
  rw [Bool.eq_false_iff]
  intro hc
  obtain ⟨c, _, rfl⟩ := isChar_iff.mp hc
  rw [isDouble_cons_quote (Or.inr rfl)] at h
  exact absurd h (by decide)

theorem isVariable_of_isBoolean (h : isBoolean v) : Name.isVariable v := by
  simp only [isBoolean, Bool.or_eq_true, beq_iff_eq] at h
  rcases h with rfl | rfl <;> decide

theorem isBoolean_eq_false_of_isDouble (h : isDouble v) : isBoolean v = false := by
  rw [Bool.eq_false_iff]
  intro hb
  rw [isDouble_eq_false_of_isVariable (isVariable_of_isBoolean hb)] at h
  exact absurd h (by decide)

theorem type_of_isInt (h : isInt v) : type v = .int := by
  simp [type, h, isString_eq_false_of_isDouble (isDouble_of_isInt h)]

theorem type_of_isDouble (h : isDouble v) (hi : isInt v = false) : type v = .double := by
  simp [type, h, hi, isString_eq_false_of_isDouble h, isChar_eq_false_of_isDouble h,
    isBoolean_eq_false_of_isDouble h]

theorem type_of_isChar (h : isChar v) : type v = .char := by
  obtain ⟨c, _, rfl⟩ := isChar_iff.mp h
  have hint := isInt_eq_false (isDouble_cons_quote (Or.inr rfl) [c, '\''])
  simp [type, h, hint, isString]

/-! ## Agreement -/

/-- A literal fits its own type. -/
theorem fits_type (h : type v ≠ .unknown) : fits v (type v) := by
  unfold type at h ⊢
  split
  · next hs => exact hs
  split
  · next hi => exact hi
  split
  · next hc => exact hc
  split
  · next hb => simp [fits, hb]
  split
  · next hd => exact hd
  · simp_all

/-- A literal that fits a type fits every type that takes values of it. -/
theorem fits_of_accepts (h : t.accepts u) (hv : fits v u) : fits v t := by
  cases t with
  | unknown => exact absurd h (by simp [Ty.accepts])
  | int | string | char =>
      obtain rfl := of_decide_eq_true h
      exact hv
  | double =>
      simp only [Ty.accepts, Bool.or_eq_true, decide_eq_true_eq] at h
      rcases h with rfl | rfl
      · exact hv
      · exact isDouble_of_isInt hv
  | boolean =>
      simp only [Ty.accepts, Bool.or_eq_true, decide_eq_true_eq] at h
      rw [fits, Bool.or_eq_true]
      rcases h with (rfl | rfl) | rfl
      · exact Bool.or_eq_true_iff.mp hv
      · exact Or.inr (isDouble_of_isInt hv)
      · exact Or.inr hv

theorem type_of_isDouble_cases (h : isDouble v) : type v = .int ∨ type v = .double := by
  cases hi : isInt v with
  | true => exact Or.inl (type_of_isInt hi)
  | false => exact Or.inr (type_of_isDouble h hi)

theorem accepts_type_of_fits (h : fits v t) : t.accepts (type v) := by
  cases t with
  | unknown => exact absurd h (by simp [fits])
  | string => simp [type_of_isString h, Ty.accepts]
  | int => simp [type_of_isInt h, Ty.accepts]
  | char => simp [type_of_isChar h, Ty.accepts]
  | double => rcases type_of_isDouble_cases h with ht | ht <;> simp [ht, Ty.accepts]
  | boolean =>
      rcases Bool.or_eq_true_iff.mp h with hb | hd
      · simp [type_of_isBoolean hb, Ty.accepts]
      · rcases type_of_isDouble_cases hd with ht | ht <;> simp [ht, Ty.accepts]

/-- A literal fits exactly the types that accept its own, and no literal is a name but the two
constants. -/
theorem fits_iff_accepts_type :
    (∀ v t, fits v t ↔ t.accepts (type v)) ∧
      ∀ v, type v ≠ .unknown ∧ Name.isVariable v ↔ v = "true".toList ∨ v = "false".toList := by
  constructor
  · intro v t
    refine ⟨accepts_type_of_fits, fun h => fits_of_accepts h (fits_type fun hu => ?_)⟩
    rw [hu, t.accepts_unknown] at h
    exact absurd h (by decide)
  · intro v
    have hconstant : isBoolean v ↔ v = "true".toList ∨ v = "false".toList := by simp [isBoolean]
    rw [← hconstant]
    constructor
    · rintro ⟨ht, hv⟩
      cases hb : isBoolean v with
      | true => rfl
      | false => exact absurd (type_eq_unknown hv hb) ht
    · intro hb
      refine ⟨?_, isVariable_of_isBoolean hb⟩
      rw [type_of_isBoolean hb]
      decide

end Literal
end SJava
