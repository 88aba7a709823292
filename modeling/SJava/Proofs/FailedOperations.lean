/-
What a failed operation leaves behind.

An operation that looks before it writes is all or nothing (`Outcome.AllOrNothing`), and so
are four of the operations that can fail.  The entry into a method is not.  It opens the frame
of the body first and declares the parameters in it one after the other, so a parameter that
repeats the name of an earlier one is found when the frame is open and the earlier ones stand
in it.  That frame stays, and it is the only trace a failed operation can leave.
-/
import SJava.Proofs.Arena

namespace SJava

/-- If the operation fails, it leaves the state that it was given. -/
def Outcome.AllOrNothing {ε σ : Type} (s : σ) (o : Outcome ε σ) : Prop :=
  ∀ e, o.failure = some e → o = .fail s e

namespace Outcome.AllOrNothing

variable {ε σ τ : Type} {s : σ}

theorem ok (t : σ) : AllOrNothing s (.ok t : Outcome ε σ) := by
  intro e h
  exact absurd h (by simp [Outcome.ok])

theorem fail (e : ε) : AllOrNothing s (.fail s e) := by
  intro e' h
  rw [Option.some.inj h]

/-- A part of the state is changed, and the rest is not touched. -/
theorem map {o : Outcome ε σ} (h : AllOrNothing s o) {f : σ → τ} {t : τ} (hf : f s = t) :
    AllOrNothing t (o.map f) := by
  intro e he
  rw [h e he, map_fail, hf]

end Outcome.AllOrNothing

theorem Frame.allOrNothing_declare (f : Frame) (x : Text) (v : Variable) (isInitialized : Bool) :
    Outcome.AllOrNothing f (f.declare x v isInitialized) := by
  unfold declare
  split
  · exact .fail _
  · exact .ok _

namespace Env

open Outcome (AllOrNothing)

theorem allOrNothing_pop (e : Env) : AllOrNothing e e.pop := by
  unfold pop
  split
  · exact .fail _
  · exact .ok _

theorem allOrNothing_addMethod (e : Env) (s : Signature) : AllOrNothing e (e.addMethod s) := by
  unfold addMethod
  split
  · exact .fail _
  · exact .ok _

theorem allOrNothing_declare (e : Env) (x : Text) (ty : Ty) (isFinal isInitialized : Bool) :
    AllOrNothing e (e.declare x ty isFinal isInitialized) := by
  unfold declare
  split
  · exact (e.globals.allOrNothing_declare _ _ _).map rfl
  · next f outer hl => exact (f.allOrNothing_declare _ _ _).map (by rw [← hl])

theorem allOrNothing_onMethodFrame {op : Frame → Outcome Fault Frame}
    (hop : ∀ f, AllOrNothing f (op f)) (fs : List Frame) :
    AllOrNothing fs (onMethodFrame op fs) := by
  induction fs with
  | nil => exact .ok _
  | cons f outer ih =>
      cases outer with
      | nil => exact (hop f).map rfl
      | cons f' outer => exact ih.map rfl

theorem allOrNothing_assign (e : Env) (x : Text) : AllOrNothing e (e.assign x) := by
  unfold assign
  split
  · exact .fail _
  split
  · exact .ok _
  split
  · exact (allOrNothing_onMethodFrame (fun f => f.allOrNothing_declare _ _ _) _).map rfl
  split
  · exact .ok _
  · exact .ok _

/-! ## Entering a method -/

/-- A method that is not known is not entered. -/
theorem enterMethod_of_signature?_eq_none {e : Env} {m : Text} (hs : e.signature? m = none) :
    e.enterMethod m = .fail e (.methodNotDeclared m) := by
  simp [enterMethod, signature, hs]

/-- The environment in which a method's body has been opened and the given parameters have been
declared. -/
def pushParameters (e : Env) (ps : List Parameter) : Env :=
  { e with locals := ⟨some e.locals.length, (ps.map (·.binding)).reverse⟩ :: e.locals }

/-- The name that a declaration fails on is declared by the innermost frame. -/
theorem declaresHere_of_failure_declare {e : Env} {x : Text} {ty : Ty} {isFinal i : Bool}
    {fault : Fault} (h : (e.declare x ty isFinal i).failure = some fault) :
    e.declaresHere x = true ∧ fault = .variableAlreadyDeclared x := by
  refine ⟨?_, fault_of_declare h⟩
  cases hd : e.declaresHere x with
  | false =>
      rw [failure_declare_of_declaresHere hd] at h
      exact absurd h (by simp)
  | true => rfl

theorem declaresHere_pushParameters {e : Env} {ps : List Parameter} {x : Text} :
    (e.pushParameters ps).declaresHere x = true ↔ x ∈ ps.map (·.name) := by
  show (List.find? _ (ps.map (·.binding)).reverse).isSome = true ↔ _
  rw [List.find?_isSome]
  constructor
  · rintro ⟨b, hb, hx⟩
    obtain ⟨p, hp, rfl⟩ := List.mem_map.mp (List.mem_reverse.mp hb)
    exact List.mem_map.mpr ⟨p, hp, of_decide_eq_true hx⟩
  · intro hx
    obtain ⟨p, hp, rfl⟩ := List.mem_map.mp hx
    exact ⟨p.binding, List.mem_reverse.mpr (List.mem_map_of_mem hp), by simp [Parameter.binding]⟩

/-- A known method fails to be entered at the first parameter that repeats the name of an earlier
one, and the frame stays open with the parameters before it. -/
theorem enterMethod_of_failure {e : Env} {m : Text} {s : Signature} {fault : Fault}
    (hs : e.signature? m = some s) (h : (e.enterMethod m).failure = some fault) :
    ∃ ps p rest, s.parameters = ps ++ p :: rest ∧ (ps.map (·.name)).Nodup ∧
      p.name ∈ ps.map (·.name) ∧
      e.enterMethod m = .fail (e.pushParameters ps) (.variableAlreadyDeclared p.name) := by
  have henter : e.enterMethod m = Outcome.each
      (fun e p => e.declare p.name p.ty p.isFinal true) e.push s.parameters := by
    rw [enterMethod, signature, hs]
  rw [henter] at h ⊢
  obtain ⟨ps, p, rest, t, hps, hbefore, heach⟩ := Outcome.exists_append_of_failure_each h
  -- The parameters before `p` have all been declared, so they have different names.
  have hpush : e.push.locals = Frame.empty (some e.locals.length) :: e.locals := rfl
  have hresult := Outcome.result?_eq_some_iff_eq_ok.mpr hbefore
  rw [result?_each_parameters hpush] at hresult
  split at hresult
  · next hdistinct =>
    obtain rfl : e.pushParameters ps = t := by
      rw [← Option.some.inj hresult, Frame.empty, List.append_nil]
      rfl
    rw [heach] at h ⊢
    obtain ⟨hhere, rfl⟩ := declaresHere_of_failure_declare h
    exact ⟨ps, p, rest, hps, hdistinct.1, declaresHere_pushParameters.mp hhere,
      allOrNothing_declare _ _ _ _ _ _ h⟩
  · simp at hresult

/-! ## The result -/

theorem allOrNothing_apply {e : Env} {op : Operation}
    (hop : ∀ m, op = .enterMethod m → e.signature? m = none) : AllOrNothing e (op.apply e) := by
  cases op with
  | push => exact .ok _
  | pop => exact e.allOrNothing_pop
  | addMethod s => exact e.allOrNothing_addMethod s
  | enterMethod m =>
      rw [Operation.apply, enterMethod_of_signature?_eq_none (hop m rfl)]
      exact .fail _
  | declare x ty isFinal isInitialized => exact e.allOrNothing_declare x ty isFinal isInitialized
  | assign x => exact e.allOrNothing_assign x

/-- An operation that fails has changed nothing, unless it is the entry into a known method.  In
that case two parameters of the method share a name, the methods and the frames from before are
unchanged, and one more frame is open, with the parameters up to the first that repeats an
earlier one. -/
theorem failed_operation_leaves_trace_iff (e : Env) (op : Operation) {fault : Fault}
    (h : (op.apply e).failure = some fault) :
    ((op.apply e).state = e ↔ ∀ m, op = .enterMethod m → e.signature? m = none) ∧
      ∀ m s, op = .enterMethod m → e.signature? m = some s →
        ∃ ps p rest, s.parameters = ps ++ p :: rest ∧ (ps.map (·.name)).Nodup ∧
          p.name ∈ ps.map (·.name) ∧ fault = .variableAlreadyDeclared p.name ∧
          (op.apply e).state = e.pushParameters ps := by
  refine ⟨⟨fun hstate m hm => ?_, fun hop => ?_⟩, fun m s hm hs => ?_⟩
  · subst hm
    cases hs : e.signature? m with
    | none => rfl
    | some s =>
        -- The frame that was opened makes the two environments differ.
        obtain ⟨ps, p, rest, _, _, _, henter⟩ := enterMethod_of_failure hs h
        rw [Operation.apply, henter] at hstate
        have hlength : e.locals.length + 1 = e.locals.length := congrArg (·.locals.length) hstate
        omega
  · rw [allOrNothing_apply hop fault h]
    rfl
  · subst hm
    obtain ⟨ps, p, rest, hps, hdistinct, hp, henter⟩ := enterMethod_of_failure hs h
    rw [Operation.apply, henter] at h ⊢
    exact ⟨ps, p, rest, hps, hdistinct, hp, (Option.some.inj h).symm, rfl⟩

/-- A method whose two parameters are both named `a`. -/
def sampleMethod : Signature := ⟨['m'], [⟨['a'], .int, false⟩, ⟨['a'], .int, false⟩]⟩

/-- The entry into its body. -/
def sampleEntry : Outcome Fault Env :=
  Operation.apply (.enterMethod ['m']) (empty.perform [.addMethod sampleMethod])

theorem sampleEntry_leaves_first_parameter :
    sampleEntry.failure = some (.variableAlreadyDeclared ['a']) ∧
      ∃ ps p rest, sampleMethod.parameters = ps ++ p :: rest ∧ (ps.map (·.name)).Nodup ∧
        p.name ∈ ps.map (·.name) ∧
        sampleEntry.state = (empty.perform [.addMethod sampleMethod]).pushParameters ps := by
  have h : sampleEntry.failure = some (.variableAlreadyDeclared ['a']) := by decide
  obtain ⟨ps, p, rest, hps, hdistinct, hp, _, hstate⟩ :=
    (failed_operation_leaves_trace_iff _ _ h).2 ['m'] sampleMethod rfl (by decide)
  exact ⟨h, ps, p, rest, hps, hdistinct, hp, hstate⟩

/-- A failed operation can leave a block open and a variable in it. -/
theorem sampleEntry_leaves_block_open :
    sampleEntry.failure = some (.variableAlreadyDeclared ['a']) ∧
      (empty.perform [.addMethod sampleMethod]).depth = 1 ∧ sampleEntry.state.depth = 2 ∧
      (empty.perform [.addMethod sampleMethod]).find? ['a'] = none ∧
      sampleEntry.state.find? ['a'] = some ⟨['a'], ⟨.int, false, false⟩, true⟩ := by
  decide

end Env
end SJava
