/-
What the rules leave alone.

A rule that the inspection applies to a line works on the frames of the open blocks.  It
changes neither the methods nor the global frame, whether it succeeds or not, and a
statement inside a method keeps the number of open blocks as well.  The one operation that
could reach the global frame from inside a method is the assignment, and it does not
because every variable of the global frame is marked as global (`AllGlobal`).  The survey
makes that so, and the inspection keeps it by leaving the global frame alone.
-/
import SJava.Proofs.Outcome
import SJava.Verifier

namespace SJava

/-- Every variable of the frame is marked as global. -/
def Frame.AllGlobal (f : Frame) : Prop := ∀ x b, f.find? x = some b → b.info.isGlobal

namespace Frame

theorem allGlobal_empty (parent : Option Nat) : (empty parent).AllGlobal := by
  intro x b h
  simp at h

theorem AllGlobal.declare {f : Frame} (hf : f.AllGlobal) (x : Text) (ty : Ty)
    (isFinal i : Bool) : (f.declare x ⟨ty, isFinal, true⟩ i).state.AllGlobal := by
  intro y b h
  by_cases hx : f.declares x
  · rw [declare_of_declares hx] at h
    exact hf y b h
  · have hx' : f.declares x = false := by simpa using hx
    by_cases hy : y = x
    · subst hy
      rw [find?_declare_self hx'] at h
      obtain rfl := Option.some.inj h
      rfl
    · rw [find?_declare_of_ne hy] at h
      exact hf y b h

theorem AllGlobal.assign {f : Frame} (hf : f.AllGlobal) (x : Text) : (f.assign x).AllGlobal := by
  intro y b h
  by_cases hy : y = x
  · subst hy
    rw [find?_assign_self] at h
    obtain ⟨b', hb', rfl⟩ := Option.map_eq_some_iff.mp h
    exact hf y b' hb'
  · rw [find?_assign_of_ne hy] at h
    exact hf y b h

/-- A frame refuses only a name that it declares already. -/
theorem fault_of_declare {f : Frame} {x : Text} {v : Variable} {i : Bool} {fault : Fault}
    (h : (f.declare x v i).failure = some fault) : fault = .variableAlreadyDeclared x := by
  unfold declare at h
  split at h
  · exact (Option.some.inj h).symm
  · simp [Outcome.ok] at h

end Frame

/-- A parameter is a variable of its method that holds a value. -/
def Parameter.binding (p : Parameter) : Binding := ⟨p.name, ⟨p.ty, p.isFinal, false⟩, true⟩

/-- The frame of a method's body, as long as the body has declared nothing. -/
def Frame.ofParameters (ps : List Parameter) : Frame :=
  ⟨some 0, (ps.map (·.binding)).reverse⟩

namespace Env

/-- The two environments differ in the frames of the open blocks at most. -/
structure SameGlobals (e e' : Env) : Prop where
  methods : e'.methods = e.methods
  globals : e'.globals = e.globals

/-- The two environments differ in what the open blocks declare at most. -/
structure SameBlocks (e e' : Env) : Prop extends SameGlobals e e' where
  length : e'.locals.length = e.locals.length

theorem SameGlobals.refl (e : Env) : SameGlobals e e := ⟨rfl, rfl⟩

theorem SameGlobals.trans {a b c : Env} (h : SameGlobals a b) (h' : SameGlobals b c) :
    SameGlobals a c :=
  ⟨h'.methods.trans h.methods, h'.globals.trans h.globals⟩

theorem SameBlocks.refl (e : Env) : SameBlocks e e := ⟨.refl e, rfl⟩

theorem SameBlocks.trans {a b c : Env} (h : SameBlocks a b) (h' : SameBlocks b c) :
    SameBlocks a c :=
  ⟨h.toSameGlobals.trans h'.toSameGlobals, h'.length.trans h.length⟩

theorem SameBlocks.ne_nil {e e' : Env} (h : SameBlocks e e') (he : e.locals ≠ []) :
    e'.locals ≠ [] := by
  have hpos : 0 < e.locals.length := List.length_pos_iff.mpr he
  rw [← h.length] at hpos
  exact List.length_pos_iff.mp hpos

/-- With no block open, what the two environments share is everything. -/
theorem SameGlobals.eq_of_locals {e e' : Env} (h : SameGlobals e e')
    (hl : e'.locals = e.locals) : e' = e := by
  obtain ⟨m, g, l⟩ := e
  obtain ⟨m', g', l'⟩ := e'
  obtain ⟨hm, hg⟩ := h
  simp only at hm hg hl
  rw [hm, hg, hl]

theorem isGlobal_eq_false {e : Env} (he : e.locals ≠ []) : e.isGlobal = false := by
  rw [Bool.eq_false_iff]
  exact fun h => he (isGlobal_iff.mp h)

theorem isGlobal_eq_true {e : Env} (he : e.locals = []) : e.isGlobal = true := isGlobal_iff.mpr he

/-! ## Statements

Whatever a declaration or an assignment keeps, the line of statements keeps. -/

section Statements

variable {P : Env → Prop} {e : Env}

theorem state_require {check : Except Fault Unit} {next : Outcome Fault Env} (he : P e)
    (hnext : P next.state) : P (Outcome.require e check next).state := by
  cases check with
  | ok u => exact hnext
  | error fault => exact he

theorem state_declareClause (he : P e)
    (hd : ∀ x ty isFinal i, P (e.declare x ty isFinal i).state) (d : Declarator) (c : Clause) :
    P (declareClause d e c).state := by
  unfold declareClause
  split
  · exact he
  split
  · exact he
  split
  · split
    · exact he
    · exact hd _ _ _ _
  · exact state_require he (hd _ _ _ _)

theorem state_assignClause (he : P e) (ha : ∀ x, P (e.assign x).state) (line : Text)
    (c : Clause) : P (assignClause line e c).state := by
  unfold assignClause
  split
  · exact he
  split
  · exact he
  split
  · exact he
  · exact state_require he (ha _)

theorem state_declareLine {pass : Pass} {line : Text} (he : P e)
    (hd : (e.isGlobal && pass = .inspection) = false → ∀ t, P t → ∀ x ty isFinal i,
      P (t.declare x ty isFinal i).state) :
    P (e.declareLine pass line).state := by
  unfold declareLine
  split
  · exact he
  next hg =>
  split
  · exact he
  split
  · exact he
  · exact Outcome.state_each
      (fun t c ht => state_declareClause ht (hd (Bool.eq_false_iff.mpr hg) t ht) _ c) he _

theorem state_assignLine {line : Text} (he : P e)
    (ha : ∀ t, P t → ∀ x, P (t.assign x).state) : P (e.assignLine line).state := by
  unfold assignLine
  split
  · exact he
  split
  · exact he
  · exact Outcome.state_each (fun t c ht => state_assignClause ht (ha t ht) line c) he _

end Statements

/-! ## Declarations -/

theorem result?_declare_nil {e e' : Env} (hl : e.locals = []) {x : Text} {ty : Ty}
    {isFinal i : Bool} (h : (e.declare x ty isFinal i).result? = some e') :
    e.globals.declares x = false ∧
      e' = { e with globals := (e.globals.declare x ⟨ty, isFinal, true⟩ i).state } := by
  simp only [declare, hl, Outcome.result?_map] at h
  obtain ⟨f, hf, rfl⟩ := Option.map_eq_some_iff.mp h
  obtain ⟨hnone, rfl⟩ := Outcome.result?_eq_some_iff.mp hf
  refine ⟨?_, by rw [hl]⟩
  cases hd : e.globals.declares x with
  | false => rfl
  | true => simp [Frame.declare_of_declares hd, Outcome.fail] at hnone

theorem result?_declare_cons {e e' : Env} {f : Frame} {outer : List Frame}
    (hl : e.locals = f :: outer) {x : Text} {ty : Ty} {isFinal i : Bool}
    (h : (e.declare x ty isFinal i).result? = some e') :
    f.declares x = false ∧
      e' = { e with locals := (f.declare x ⟨ty, isFinal, false⟩ i).state :: outer } := by
  simp only [declare, hl, Outcome.result?_map] at h
  obtain ⟨f', hf, rfl⟩ := Option.map_eq_some_iff.mp h
  obtain ⟨hnone, rfl⟩ := Outcome.result?_eq_some_iff.mp hf
  refine ⟨?_, rfl⟩
  cases hd : f.declares x with
  | false => rfl
  | true => simp [Frame.declare_of_declares hd, Outcome.fail] at hnone

theorem failure_declare_of_declaresHere {e : Env} {x : Text} (h : e.declaresHere x = false)
    (ty : Ty) (isFinal i : Bool) : (e.declare x ty isFinal i).failure = none := by
  cases hl : e.locals <;>
    simp_all [declare, declaresHere, Outcome.map, Frame.declare, Outcome.ok]

theorem fault_of_declare {e : Env} {x : Text} {ty : Ty} {isFinal i : Bool} {fault : Fault}
    (h : (e.declare x ty isFinal i).failure = some fault) :
    fault = .variableAlreadyDeclared x := by
  unfold declare at h
  split at h <;> exact Frame.fault_of_declare h

/-! ## Operations inside a method -/

theorem sameBlocks_declare {e : Env} (he : e.locals ≠ []) (x : Text) (ty : Ty)
    (isFinal i : Bool) : SameBlocks e (e.declare x ty isFinal i).state := by
  cases hl : e.locals with
  | nil => exact absurd hl he
  | cons f outer => simp only [declare, hl]; exact ⟨⟨rfl, rfl⟩, by simp [Outcome.map, hl]⟩

theorem length_state_onMethodFrame (op : Frame → Outcome Fault Frame) (fs : List Frame) :
    (onMethodFrame op fs).state.length = fs.length := by
  induction fs with
  | nil => rfl
  | cons f fs ih =>
      cases fs with
      | nil => rfl
      | cons g fs => simpa [onMethodFrame, Outcome.map] using ih

theorem failure_onMethodFrame_declare {fs : List Frame} {x : Text}
    (h : ∀ f ∈ fs, f.declares x = false) (v : Variable) (i : Bool) :
    (onMethodFrame (fun f => f.declare x v i) fs).failure = none := by
  induction fs with
  | nil => rfl
  | cons f fs ih =>
      rw [List.forall_mem_cons] at h
      cases fs with
      | nil => simp [onMethodFrame, Frame.declare, h.1, Outcome.map, Outcome.ok]
      | cons g fs => exact ih h.2

theorem length_assignFirst (x : Text) (fs : List Frame) :
    (assignFirst x fs).length = fs.length := by
  induction fs with
  | nil => rfl
  | cons f fs ih =>
      rw [assignFirst]
      split
      · rfl
      · simpa using ih

/-- What is found under a name that no open block declares stands in the global frame. -/
theorem find?_globals_of_find? {e : Env} {x : Text} {b : Binding} (h : e.find? x = some b)
    (hl : (e.locals.any fun f => f.declares x) = false) : e.globals.find? x = some b := by
  have hnone : (e.locals.findSome? fun f => f.find? x) = none := by
    rw [List.findSome?_eq_none_iff]
    intro f hf
    have hd : f.declares x = false := by simpa using List.any_eq_false.mp hl f hf
    simpa [Frame.declares] using hd
  rw [find?, frames, List.findSome?_append, hnone] at h
  simpa using h

/-- An assignment inside a method.  The global frame is out of reach: a variable that is
not marked as global has been found in one of the open blocks. -/
theorem assign_eq {e : Env} (he : e.locals ≠ []) (hg : e.globals.AllGlobal) {x : Text}
    {b : Binding} (hb : e.find? x = some b) (hi : b.isInitialized = false) :
    e.assign x =
      if b.info.isGlobal then
        (onMethodFrame (fun f => f.declare x b.info true) e.locals).map
          fun fs => { e with locals := fs }
      else .ok { e with locals := assignFirst x e.locals } := by
  rw [assign, hb]
  simp only [hi, isGlobal_eq_false he, Bool.false_eq_true, if_false, Bool.not_false, Bool.and_true]
  by_cases hbg : b.info.isGlobal
  · simp [hbg]
  · have hany : (e.locals.any fun f => f.declares x) = true := by
      cases hn : e.locals.any fun f => f.declares x with
      | true => rfl
      | false => exact absurd (hg x b (find?_globals_of_find? hb hn)) hbg
    rw [if_neg hbg, if_neg hbg, if_pos hany]

theorem sameBlocks_assign {e : Env} (he : e.locals ≠ []) (hg : e.globals.AllGlobal) (x : Text) :
    SameBlocks e (e.assign x).state := by
  cases hb : e.find? x with
  | none =>
      rw [assign_of_find?_eq_none hb]
      exact .refl e
  | some b =>
      cases hi : b.isInitialized with
      | true =>
          rw [assign_of_isInitialized hb hi]
          exact .refl e
      | false =>
          rw [assign_eq he hg hb hi]
          split
          · exact ⟨⟨rfl, rfl⟩, length_state_onMethodFrame _ _⟩
          · exact ⟨⟨rfl, rfl⟩, length_assignFirst x e.locals⟩

theorem sameBlocks_declareLine (e : Env) (line : Text) :
    SameBlocks e (e.declareLine .inspection line).state := by
  refine state_declareLine (.refl e) fun hg t ht x ty isFinal i => ?_
  have he : e.locals ≠ [] := by
    intro hl
    simp [isGlobal_eq_true hl] at hg
  exact ht.trans (sameBlocks_declare (ht.ne_nil he) x ty isFinal i)

theorem sameBlocks_assignLine {e : Env} (he : e.locals ≠ []) (hg : e.globals.AllGlobal)
    (line : Text) : SameBlocks e (e.assignLine line).state := by
  refine state_assignLine (.refl e) fun t ht x => ?_
  have hg' : t.globals.AllGlobal := by rw [ht.globals]; exact hg
  exact ht.trans (sameBlocks_assign (ht.ne_nil he) hg' x)

/-! ## Methods -/

theorem methods_declare (e : Env) (x : Text) (ty : Ty) (isFinal i : Bool) :
    (e.declare x ty isFinal i).state.methods = e.methods := by
  unfold declare
  split <;> rfl

theorem methods_assign (e : Env) (x : Text) : (e.assign x).state.methods = e.methods := by
  unfold assign
  split
  · rfl
  split
  · rfl
  split
  · rfl
  split <;> rfl

theorem methods_declareLine (pass : Pass) (e : Env) (line : Text) :
    (e.declareLine pass line).state.methods = e.methods :=
  state_declareLine (P := fun t => t.methods = e.methods) rfl
    fun _ t ht x ty isFinal i => (methods_declare t x ty isFinal i).trans ht

theorem methods_assignLine (e : Env) (line : Text) :
    (e.assignLine line).state.methods = e.methods :=
  state_assignLine (P := fun t => t.methods = e.methods) rfl
    fun t ht x => (methods_assign t x).trans ht

theorem result?_headerLine_survey {e : Env} (he : e.locals = []) (line : Text) :
    (e.headerLine .survey line).result? =
      (Header.parse? line).bind fun hd =>
        match hd.signature with
        | .error _ => none
        | .ok s =>
          if e.signature? s.name = none then some { e with methods := s :: e.methods }
          else none := by
  simp only [headerLine, isGlobal_eq_true he, Bool.not_true, Bool.false_eq_true, if_false]
  cases Header.parse? line with
  | none => rfl
  | some hd =>
      cases hsig : hd.signature with
      | error fault => simp [hsig]
      | ok s => cases hs : e.signature? s.name <;> simp [hsig, addMethod, hs]

theorem signature?_headerLine_survey {e : Env} {m : Text} {s : Signature}
    (h : e.signature? m = some s) (line : Text) :
    (e.headerLine .survey line).state.signature? m = some s := by
  simp only [headerLine]
  split
  · exact h
  split
  · exact h
  split
  · exact h
  next s' _ =>
  unfold addMethod
  split
  · exact h
  · next hnone =>
    have hne : ¬ s'.name = m := by
      rintro rfl
      rw [h] at hnone
      exact absurd hnone (by simp)
    simpa [Outcome.ok, signature?, hne] using h

/-! ## Blocks -/

theorem sameGlobals_pop (e : Env) : SameGlobals e e.pop.state := by
  cases hl : e.locals <;> simp only [pop, hl] <;> exact ⟨rfl, rfl⟩

theorem sameGlobals_enterMethod (e : Env) (m : Text) : SameGlobals e (e.enterMethod m).state := by
  unfold enterMethod
  split
  · exact .refl e
  · next s hs =>
    have hpush : SameGlobals e e.push := ⟨rfl, rfl⟩
    have hne : e.push.locals ≠ [] := List.cons_ne_nil _ _
    have hdecl : SameBlocks e.push (Outcome.each
        (fun e p => e.declare p.name p.ty p.isFinal true) e.push s.parameters).state :=
      Outcome.state_each (P := SameBlocks e.push)
        (fun t p ht => ht.trans (sameBlocks_declare (ht.ne_nil hne) _ _ _ _)) (.refl _) _
    exact hpush.trans hdecl.toSameGlobals

/-- The frame that a method's body starts with holds the parameters, if no two of them
share a name. -/
theorem result?_each_parameters {e : Env} {f : Frame} {outer : List Frame}
    (he : e.locals = f :: outer) (ps : List Parameter) :
    (Outcome.each (fun e p => e.declare p.name p.ty p.isFinal true) e ps).result? =
      if (ps.map (·.name)).Nodup ∧ ∀ p ∈ ps, f.declares p.name = false then
        some { e with locals :=
          { f with bindings := (ps.map (·.binding)).reverse ++ f.bindings } :: outer }
      else none := by
  induction ps generalizing e f with
  | nil =>
      obtain ⟨m, g, l⟩ := e
      simp only at he
      simp [he]
  | cons p ps ih =>
      rw [Outcome.result?_each_cons, declare, he]
      cases hd : f.declares p.name with
      | true => simp [Frame.declare, hd]
      | false =>
          let f' : Frame := { f with bindings := p.binding :: f.bindings }
          have hf' (x : Text) : f'.declares x = (p.name == x || f.declares x) := by
            simp only [f', Frame.declares, Frame.find?, List.find?_cons, Parameter.binding]
            by_cases hx : p.name = x <;> simp [hx]
          have hstep : (f.declare p.name ⟨p.ty, p.isFinal, false⟩ true).map
              (fun f => ({ e with locals := f :: outer } : Env)) =
                .ok { e with locals := f' :: outer } := by
            simp [Frame.declare, hd, f', Parameter.binding]
          simp only [hstep, Outcome.result?_ok, Option.bind_some]
          rw [ih (e := { e with locals := f' :: outer }) rfl]
          have hcond : ((ps.map (·.name)).Nodup ∧ ∀ q ∈ ps, f'.declares q.name = false) ↔
              (((p :: ps).map (·.name)).Nodup ∧ ∀ q ∈ p :: ps, f.declares q.name = false) := by
            simp only [hf', List.map_cons, List.nodup_cons, List.mem_map, List.forall_mem_cons, hd,
              Bool.or_eq_false_iff, beq_eq_false_iff_ne, true_and]
            constructor
            · rintro ⟨hn, h⟩
              refine ⟨⟨?_, hn⟩, fun q hq => (h q hq).2⟩
              rintro ⟨q, hq, he⟩
              exact (h q hq).1 he.symm
            · rintro ⟨⟨hne, hn⟩, h⟩
              exact ⟨hn, fun q hq => ⟨fun he => hne ⟨q, hq, he.symm⟩, h q hq⟩⟩
          simp only [hcond, f', List.map_cons, List.reverse_cons, List.append_assoc,
            List.singleton_append]

/-- The body of a method opens with its parameters in view, if no two of them share a
name. -/
theorem result?_enterMethod {e : Env} (he : e.locals = []) {m : Text} {s : Signature}
    (hs : e.signature? m = some s) :
    (e.enterMethod m).result? =
      if (s.parameters.map (·.name)).Nodup then
        some { e with locals := [Frame.ofParameters s.parameters] }
      else none := by
  rw [enterMethod, signature, hs]
  have hpush : e.push.locals = Frame.empty (some 0) :: [] := by rw [push, he]; rfl
  have hdecl : ∀ p ∈ s.parameters, (Frame.empty (some 0)).declares p.name = false :=
    fun p _ => rfl
  simp only [result?_each_parameters hpush, and_iff_left hdecl]
  simp only [Frame.empty, List.append_nil]
  rfl

/-- The body of a known method can fail to open for one reason only. -/
theorem failure_enterMethod {e : Env} {m : Text} {s : Signature} (hs : e.signature? m = some s)
    {fault : Fault} (h : (e.enterMethod m).failure = some fault) :
    ∃ x, fault = .variableAlreadyDeclared x := by
  rw [enterMethod, signature, hs] at h
  refine Outcome.failure_each (Q := fun f => ∃ x, f = .variableAlreadyDeclared x) ?_ h
  intro t p f hf
  unfold declare at hf
  split at hf <;>
  · simp only [Outcome.map, Frame.declare] at hf
    split at hf
    · exact ⟨_, (Option.some.inj hf).symm⟩
    · simp [Outcome.ok] at hf

theorem result?_headerLine_eq_some {e e' : Env} {line : Text}
    (h : (e.headerLine .inspection line).result? = some e') :
    ∃ hd s, Header.parse? line = some hd ∧ e.locals = [] ∧ e.signature? hd.name = some s ∧
      (s.parameters.map (·.name)).Nodup ∧
      e' = { e with locals := [Frame.ofParameters s.parameters] } := by
  unfold headerLine at h
  split at h
  · simp at h
  · next hd hhd =>
    split at h
    · simp at h
    · next hg =>
      have he : e.locals = [] := isGlobal_iff.mp (by simpa using hg)
      cases hs : e.signature? hd.name with
      | none => simp [enterMethod, signature, hs] at h
      | some s =>
          simp only [result?_enterMethod he hs] at h
          split at h
          · next hn => exact ⟨hd, s, hhd, he, hs, hn, (Option.some.inj h).symm⟩
          · simp at h

theorem sameGlobals_headerLine (e : Env) (line : Text) :
    SameGlobals e (e.headerLine .inspection line).state := by
  unfold headerLine
  split
  · exact .refl e
  split
  · exact .refl e
  · exact sameGlobals_enterMethod e _

theorem sameGlobals_openBlock (e : Env) (line : Text) :
    SameGlobals e (e.openBlock line).state := by
  unfold openBlock
  split
  · exact .refl e
  split
  · exact .refl e
  · exact state_require (.refl e) ⟨rfl, rfl⟩

theorem sameGlobals_closeBlock (afterReturn : Bool) (e : Env) :
    SameGlobals e (e.closeBlock afterReturn).state := by
  unfold closeBlock
  split
  · exact .refl e
  · exact sameGlobals_pop e

/-! ## Where lines may stand -/

theorem isGlobal_eq_false_of_checkCall {e : Env} {line : Text} (h : (e.checkCall line).isOk) :
    e.isGlobal = false := by
  unfold checkCall at h
  split at h
  · simp [Except.isOk, Except.toBool] at h
  split at h
  · simp [Except.isOk, Except.toBool] at h
  · next hl => simpa using hl

theorem isGlobal_eq_false_of_checkReturn {e : Env} {line : Text} (h : (e.checkReturn line).isOk) :
    e.isGlobal = false := by
  unfold checkReturn at h
  split at h
  · simp [Except.isOk, Except.toBool] at h
  split at h
  · simp [Except.isOk, Except.toBool] at h
  · next hl => simpa using hl

theorem result?_openBlock_eq_some {e e' : Env} {line : Text}
    (h : (e.openBlock line).result? = some e') : e.isGlobal = false ∧ e' = e.push := by
  unfold openBlock at h
  split at h
  · simp at h
  next hl =>
  split at h
  · simp at h
  · rw [Outcome.result?_require] at h
    split at h
    · exact ⟨by simpa using hl, (Option.some.inj h).symm⟩
    · simp at h

theorem result?_closeBlock_eq_some {e e' : Env} {afterReturn : Bool}
    (h : (e.closeBlock afterReturn).result? = some e') :
    ∃ f outer, e.locals = f :: outer ∧ e' = { e with locals := outer } := by
  unfold closeBlock at h
  split at h
  · simp at h
  cases hl : e.locals with
  | nil => simp [pop, hl] at h
  | cons f outer =>
      simp only [pop, hl, Outcome.result?_ok] at h
      exact ⟨f, outer, rfl, (Option.some.inj h).symm⟩

/-! ## Operations outside every block -/

/-- No block is open, and the variables known so far are marked as global. -/
structure AtTop (e : Env) : Prop where
  locals : e.locals = []
  allGlobal : e.globals.AllGlobal

theorem find?_of_locals_eq_nil {e : Env} (hl : e.locals = []) (x : Text) :
    e.find? x = e.globals.find? x := by
  simp [find?, frames, hl]

theorem atTop_empty : AtTop empty := ⟨rfl, Frame.allGlobal_empty none⟩

theorem AtTop.declare {e : Env} (he : AtTop e) (x : Text) (ty : Ty) (isFinal i : Bool) :
    AtTop (e.declare x ty isFinal i).state := by
  rw [Env.declare, he.locals]
  exact ⟨rfl, he.allGlobal.declare x ty isFinal i⟩

theorem assign_of_locals_eq_nil {e : Env} (hl : e.locals = []) {x : Text} {b : Binding}
    (hb : e.find? x = some b) (hi : b.isInitialized = false) :
    e.assign x = .ok { e with globals := e.globals.assign x } := by
  simp [assign, hb, hi, isGlobal_eq_true hl, hl]

theorem AtTop.assign {e : Env} (he : AtTop e) (x : Text) : AtTop (e.assign x).state := by
  cases hb : e.find? x with
  | none =>
      rw [assign_of_find?_eq_none hb]
      exact he
  | some b =>
      cases hi : b.isInitialized with
      | true =>
          rw [assign_of_isInitialized hb hi]
          exact he
      | false =>
          rw [assign_of_locals_eq_nil he.locals hb hi]
          exact ⟨he.locals, he.allGlobal.assign x⟩

theorem AtTop.declareLine {e : Env} (he : AtTop e) (line : Text) :
    AtTop (e.declareLine .survey line).state :=
  state_declareLine he fun _ _ ht => ht.declare

theorem AtTop.assignLine {e : Env} (he : AtTop e) (line : Text) :
    AtTop (e.assignLine line).state :=
  state_assignLine he fun _ ht => ht.assign

theorem AtTop.headerLine {e : Env} (he : AtTop e) (line : Text) :
    AtTop (e.headerLine .survey line).state := by
  simp only [Env.headerLine]
  split
  · exact he
  split
  · exact he
  split
  · exact he
  · unfold addMethod
    split
    · exact he
    · exact ⟨he.locals, he.allGlobal⟩

end Env

/-- No rule reaches the methods or the global frame. -/
theorem Rule.sameGlobals_apply (rule : Rule) (afterReturn : Bool) {e : Env}
    (hg : e.globals.AllGlobal) (line : Text) :
    e.SameGlobals (rule.apply afterReturn e line).state := by
  cases rule with
  | refuseComment => exact .refl e
  | declare => exact (e.sameBlocks_declareLine line).toSameGlobals
  | enterMethod => exact e.sameGlobals_headerLine line
  | openBlock => exact e.sameGlobals_openBlock line
  | closeBlock => exact e.sameGlobals_closeBlock afterReturn
  | call => exact Env.state_require (.refl e) (.refl e)
  | assign =>
      show e.SameGlobals (if e.isGlobal then .ok e else e.assignLine line).state
      split
      · exact .refl e
      · next h =>
        have he : e.locals ≠ [] := fun hl => h (Env.isGlobal_eq_true hl)
        exact (Env.sameBlocks_assignLine he hg line).toSameGlobals
  | leave => exact Env.state_require (.refl e) (.refl e)

end SJava
