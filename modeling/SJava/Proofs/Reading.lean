/-
Variables read at their own types.

A text that stands for a value is first tried as a literal and then looked up, so a variable
can be read only if its name is no literal.  Names that can be declared are words, and of the
literals only `true` and `false` are words.  Neither is reserved: a variable of any type can
be called by them, and its value is lost behind the constant unless it is a `boolean` itself
(`own_type_read_unless_constant`).
-/
import SJava.Proofs.Initialization
import SJava.Proofs.LiteralUse

namespace SJava

open Text

namespace Env

/-- The innermost variable of the name has a value and the type. -/
def Holds (e : Env) (t : Ty) (x : Text) : Prop :=
  ∃ b, e.find? x = some b ∧ b.isInitialized ∧ b.info.ty = t

/-- A variable that has a value can be read at its own type, as a value and as an argument,
unless its name is a constant of another type. -/
structure ReadsOwnTypes (e : Env) : Prop where
  value : ∀ t x, e.Holds t x →
    ((e.checkValue t x).isOk ↔ (Literal.isBoolean x → t = .boolean))
  argument : ∀ t x, e.Holds t x →
    ((e.checkArgument t x).isOk ↔ (Literal.isBoolean x → t = .boolean))
  call : e.isGlobal = false → ∀ m s xs, e.signature? m = some s →
    List.Forall₂ (fun p x => e.Holds p.ty x) s.parameters xs →
    (e.Accepts .methodCall (Call.line m xs) ↔
      List.Forall₂ (fun p x => Literal.isBoolean x → p.ty = .boolean) s.parameters xs)

end Env

/-! ## Names and constants -/

theorem Ty.accepts_self {t : Ty} (h : t ≠ .unknown) : t.accepts t := by
  cases t <;> first | rfl | exact absurd rfl h

theorem Literal.type_of_isBoolean {x : Text} (h : isBoolean x) : type x = .boolean := by
  simp only [isBoolean, Bool.or_eq_true, beq_iff_eq] at h
  rcases h with rfl | rfl <;> decide +kernel

theorem Literal.fits_iff_of_isBoolean {x : Text} {t : Ty} (h : isBoolean x) :
    fits x t ↔ t = .boolean := by
  simp only [isBoolean, Bool.or_eq_true, beq_iff_eq] at h
  rcases h with rfl | rfl <;> cases t <;> decide +kernel

namespace Env.Proper

variable {e : Env} {t : Ty} {x : Text}

theorem isVariable_of_holds (he : e.Proper) (h : e.Holds t x) : Name.isVariable x := by
  obtain ⟨b, hb, _, _⟩ := h
  exact name_of_find? hb ▸ (he.binding_of_find? hb).name

/-- A name is read as a constant if it is one and as a variable otherwise, so this is all
that the rules for values can ask of it. -/
theorem read_iff (he : e.Proper) (h : e.Holds t x) :
    (Literal.type x ≠ .unknown ∧ Literal.fits x t ∨ Literal.type x = .unknown) ↔
      (Literal.isBoolean x → t = .boolean) := by
  cases hx : Literal.isBoolean x with
  | true => simp [Literal.type_of_isBoolean hx, Literal.fits_iff_of_isBoolean hx]
  | false => simp [Literal.type_eq_unknown (he.isVariable_of_holds h) hx]

theorem isOk_checkValue_iff (he : e.Proper) (h : e.Holds t x) :
    (e.checkValue t x).isOk ↔ (Literal.isBoolean x → t = .boolean) := by
  have hname := he.isVariable_of_holds h
  have haccepts : ∃ b, e.find? x = some b ∧ b.isInitialized ∧ t.accepts b.info.ty := by
    obtain ⟨b, hb, hi, rfl⟩ := h
    exact ⟨b, hb, hi, Ty.accepts_self (he.binding_of_find? hb).ty⟩
  rw [Env.isOk_checkValue_iff, ← he.read_iff h]
  simp only [hname, haccepts, and_true]

theorem isOk_checkArgument_iff (he : e.Proper) (h : e.Holds t x) :
    (e.checkArgument t x).isOk ↔ (Literal.isBoolean x → t = .boolean) := by
  rw [Env.isOk_checkArgument_iff, ← he.read_iff h]
  have hholds : ∃ b, e.find? x = some b ∧ b.isInitialized ∧ b.info.ty = t := h
  simp only [hholds, and_true]

theorem accepts_line_names_iff (he : e.Proper) (hin : e.isGlobal = false) {m : Text}
    {s : Signature} {xs : List Text} (hs : e.signature? m = some s)
    (h : List.Forall₂ (fun p x => e.Holds p.ty x) s.parameters xs) :
    e.Accepts .methodCall (Call.line m xs) ↔
      List.Forall₂ (fun p x => Literal.isBoolean x → p.ty = .boolean) s.parameters xs := by
  obtain ⟨hlen, hholds⟩ := List.forall₂_iff_zip.mp h
  have hnames : ∀ x ∈ xs, Name.isVariable x := by
    intro x hx
    rw [← List.map_snd_zip hlen.ge] at hx
    obtain ⟨⟨p, x⟩, hp, rfl⟩ := List.mem_map.mp hx
    exact he.isVariable_of_holds (hholds hp)
  -- Names are words, so the list of them is cut where it was put together.
  have hvs : ∀ x ∈ xs, isItem none x ∧ x.Bare := fun x hx =>
    ⟨Name.isItem_of_isVariable (hnames x hx), Name.bare_of_isVariable (hnames x hx)⟩
  have hparen : ∀ x ∈ xs, ')' ∉ x := fun x hx =>
    Name.not_mem_of_isVariable (hnames x hx) (isWord_eq_false_of_ascii (by decide))
  rw [accepts_line_iff he hin hs hvs, isOk_checkArguments_iff, List.forall₂_iff_zip]
  constructor
  · rintro ⟨_, _, hok⟩
    exact ⟨hlen, fun hp => (he.isOk_checkArgument_iff (hholds hp)).mp (hok _ _ hp)⟩
  · rintro ⟨_, hconst⟩
    exact ⟨hparen, hlen.symm, fun _ _ hp =>
      (he.isOk_checkArgument_iff (hholds hp)).mpr (hconst hp)⟩

theorem readsOwnTypes (he : e.Proper) : e.ReadsOwnTypes where
  value _ _ := he.isOk_checkValue_iff
  argument _ _ := he.isOk_checkArgument_iff
  call hin _ _ _ := he.accepts_line_names_iff hin

end Env.Proper

namespace Verifier

/-- At every point of a run over the lines of a source, a variable that has a value can be read
at its own type, as a value and as an argument of a call, if and only if it is not called
`true` or `false` or its type is `boolean`. -/
theorem own_type_read_unless_constant (source : Text) :
    Throughout (Text.lines source) Env.ReadsOwnTypes :=
  throughout_of_proper (fun _ => Env.Proper.readsOwnTypes) source

/-- What the survey knows after the declaration of a string called `true`. -/
def sampleConstant : Env :=
  (surveyTo (Text.lines "String true = \"s\";\nString b = true;\n".toList) 1).state.env

theorem sampleConstant_hides_string :
    sampleConstant.Holds .string "true".toList ∧
      sampleConstant.checkValue .string "true".toList =
        .error (.typeIncompatible "String".toList "boolean".toList) ∧
      (sampleConstant.checkArgument .string "true".toList).isOk = false :=
  ⟨⟨⟨"true".toList, ⟨.string, false, true⟩, true⟩, by decide +kernel⟩, by decide +kernel⟩

end Verifier
end SJava
