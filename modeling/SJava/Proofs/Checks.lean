/-
What the checks of values ask.

A check says no more about an environment than what names stand for in it, so each is
described by what it finds under the names it meets.  A list of operands or of arguments is
accepted if each member is.
-/
import SJava.Proofs.Outcome
import SJava.Rules.Block
import SJava.Rules.Method

namespace SJava

@[simp] theorem isOk_ok {ε α : Type} (a : α) : (Except.ok a : Except ε α).isOk = true := rfl

@[simp] theorem isOk_error {ε α : Type} (e : ε) : (Except.error e : Except ε α).isOk = false := rfl

namespace Env

variable {e : Env}

/-- A value is a literal that fits, or a variable whose value can be taken over. -/
theorem isOk_checkValue_iff {target : Ty} {v : Text} :
    (e.checkValue target v).isOk ↔
      Literal.type v ≠ .unknown ∧ Literal.fits v target ∨
        Literal.type v = .unknown ∧ Name.isVariable v ∧
          ∃ b, e.find? v = some b ∧ b.isInitialized ∧ target.accepts b.info.ty := by
  unfold checkValue
  by_cases hlit : Literal.type v = .unknown
  · cases hname : Name.isVariable v with
    | false => simp [hlit]
    | true =>
        cases hb : e.find? v with
        | none => simp [hlit]
        | some b =>
            cases hi : b.isInitialized with
            | false => simp [hlit, hi]
            | true => by_cases ha : target.accepts b.info.ty = true <;> simp [hlit, hi, ha]
  · by_cases hf : Literal.fits v target = true <;> simp [hlit, hf]

/-- An argument is a literal that fits, or a variable of exactly the type of the
parameter. -/
theorem isOk_checkArgument_iff {expected : Ty} {v : Text} :
    (e.checkArgument expected v).isOk ↔
      Literal.type v ≠ .unknown ∧ Literal.fits v expected ∨
        Literal.type v = .unknown ∧
          ∃ b, e.find? v = some b ∧ b.isInitialized ∧ b.info.ty = expected := by
  unfold checkArgument
  by_cases hlit : Literal.type v = .unknown
  · cases hb : e.find? v with
    | none => simp [hlit]
    | some b =>
        cases hi : b.isInitialized with
        | false => simp [hlit, hi]
        | true => by_cases ha : b.info.ty = expected <;> simp [hlit, hi, ha]
  · by_cases hf : Literal.fits v expected = true <;> simp [hlit, hf]

theorem isOk_checkOperand_iff {o : Operand} :
    (e.checkOperand o).isOk ↔
      ∀ x, o = .name x →
        ∃ b, e.find? x = some b ∧ b.isInitialized ∧ b.info.ty.isConditionOperand := by
  cases o with
  | literal => simp [checkOperand]
  | name x =>
      rw [checkOperand]
      cases hb : e.find? x with
      | none => simp [hb]
      | some b =>
          cases hi : b.isInitialized <;> by_cases ht : b.info.ty.isConditionOperand = true <;>
            simp [hb, hi, ht]

theorem isOk_checkOperands_iff {os : List Operand} :
    (e.checkOperands os).isOk ↔ ∀ o ∈ os, (e.checkOperand o).isOk := by
  induction os with
  | nil => simp [checkOperands]
  | cons o os ih =>
      rw [checkOperands]
      cases ho : e.checkOperand o <;> simp [ho, ih]

theorem isOk_checkArguments_iff {ps : List Parameter} {vs : List Text} :
    (e.checkArguments ps vs).isOk ↔
      ∀ p v, (p, v) ∈ ps.zip vs → (e.checkArgument p.ty v).isOk := by
  induction ps generalizing vs with
  | nil => simp [checkArguments]
  | cons p ps ih =>
      cases vs with
      | nil => simp [checkArguments]
      | cons v vs =>
          rw [checkArguments]
          cases hv : e.checkArgument p.ty v with
          | error fault =>
              simp only [isOk_error, Bool.false_eq_true, false_iff]
              intro h
              have hp := h p v (by simp)
              simp [hv] at hp
          | ok u =>
              simp only [ih, List.zip_cons_cons, List.mem_cons]
              constructor
              · rintro h q w (heq | hmem)
                · obtain ⟨rfl, rfl⟩ := Prod.mk.inj heq
                  simp [hv]
                · exact h q w hmem
              · intro h q w hmem
                exact h q w (Or.inr hmem)

/-- A call meets the signature of a known method, argument by argument. -/
theorem isOk_checkCall_iff {line : Text} :
    (e.checkCall line).isOk ↔
      ∃ c s, Call.parse? line = some c ∧ e.isGlobal = false ∧ e.signature? c.method = some s ∧
        (∀ v ∈ Text.items c.arguments, v ≠ []) ∧
        (Text.items c.arguments).length = s.arity ∧
        (e.checkArguments s.parameters (Text.items c.arguments)).isOk := by
  unfold checkCall
  cases hc : Call.parse? line with
  | none => simp
  | some c =>
      cases hg : e.isGlobal with
      | true => simp
      | false =>
          cases hs : e.signature? c.method with
          | none => simp [signature, hs]
          | some s =>
              simp only [signature, hs, Bool.false_eq_true, if_false]
              by_cases hany : (Text.items c.arguments).any (·.isEmpty) = true
              · obtain ⟨v, hv, hnil⟩ := List.any_eq_true.mp hany
                rw [if_pos hany]
                simp only [isOk_error, Bool.false_eq_true, false_iff]
                rintro ⟨c', s', heq, _, _, hne, _⟩
                obtain rfl := Option.some.inj heq
                exact hne v hv (List.isEmpty_iff.mp hnil)
              · have hne : ∀ v ∈ Text.items c.arguments, v ≠ [] := by
                  intro v hv hnil
                  exact hany (List.any_eq_true.mpr ⟨v, hv, List.isEmpty_iff.mpr hnil⟩)
                rw [if_neg hany]
                by_cases hlen : (Text.items c.arguments).length = s.arity
                · simpa [hlen, hs] using fun _ => hne
                · simp [hlen, hs]

end Env
end SJava
