/-
A diagnostic quotes the line it points at.

A fault carries parts of a program: names, words, conditions, whole lines.  Each of them has
been cut out of the line on which the fault is found.  Most rules see no more of a program
than one line and what is known, so for them this is a fact about the pieces of that line.
The exception is the header of a method with two parameters of one name.  Its fault is found
when the body is entered, and the name comes from the methods that are known.  It stands on
the line because the survey took the method from that same line.
-/
import SJava.Proofs.Findings
import SJava.Proofs.Pieces

namespace SJava

open Text

/-! ## Faults and their parts -/

namespace Fault

/-- The parts of a program that a fault carries.  The types of values that do not go together
are not among them: they are those of declarations elsewhere. -/
def parts : Fault → List Text
  | unknownType t => [t]
  | variableAlreadyDeclared x | variableNotDeclared x | variableUninitializedUse x
  | finalReassignment x | uninitializedFinalDeclaration x | duplicateInStatement x => [x]
  | declarationSyntax l | assignmentSyntax l | unknownLineSyntax l => [l]
  | methodNotDeclared m | methodAlreadyDeclared m | methodArityMismatch m _ _
  | methodCallOutsideMethod m | emptyArgument m | methodDeclarationOutsideGlobal m => [m]
  | invalidParameter p => [p]
  | invalidParameterName x => [x]
  | reservedWordMisuse w => [w]
  | conditionSyntax c => [c]
  | typeIncompatible _ _ | methodArgumentTypeMismatch _ _ => []
  | conditionOutsideMethod | returnOutsideMethod | missingReturnBeforeBlockEnd
  | unmatchedBlockEnd | illegalComment | unclosedScope => []

/-- Each part that the fault carries is a part of the line. -/
def Quotes (fault : Fault) (line : Text) : Prop := ∀ t ∈ fault.parts, t <:+: line

namespace Quotes

variable {fault : Fault} {line : Text}

theorem of_parts {x : Text} (h : fault.parts = [x]) (hx : x <:+: line) : fault.Quotes line := by
  intro t ht
  rw [h] at ht
  rw [List.mem_singleton.mp ht]
  exact hx

theorem of_nil (h : fault.parts = []) : fault.Quotes line := by
  intro t ht
  rw [h] at ht
  simp at ht

theorem mono {s : Text} (h : fault.Quotes s) (hs : s <:+: line) : fault.Quotes line :=
  fun t ht => (h t ht).trans hs

end Quotes
end Fault

/-- If the check fails, its fault quotes the line. -/
def CheckQuotes {α : Type} (line : Text) (check : Except Fault α) : Prop :=
  ∀ fault, check = .error fault → fault.Quotes line

namespace CheckQuotes

variable {α : Type} {line : Text}

theorem ok (a : α) : CheckQuotes line (.ok a : Except Fault α) := fun _ h => nomatch h

theorem error {fault : Fault} (h : fault.Quotes line) :
    CheckQuotes line (.error fault : Except Fault α) := by
  intro f hf
  rw [← Except.error.inj hf]
  exact h

/-- The fault carries one part, which stands on the line. -/
theorem part {fault : Fault} {x : Text} (hx : x <:+: line) (h : fault.parts = [x]) :
    CheckQuotes line (.error fault : Except Fault α) := error (.of_parts h hx)

/-- The fault carries no part. -/
theorem bare {fault : Fault} (h : fault.parts = []) :
    CheckQuotes line (.error fault : Except Fault α) := error (.of_nil h)

end CheckQuotes

/-- If the operation fails, its fault quotes the line. -/
def RuleQuotes {σ : Type} (line : Text) (o : Outcome Fault σ) : Prop :=
  ∀ fault, o.failure = some fault → fault.Quotes line

namespace RuleQuotes

variable {σ τ α : Type} {line : Text} {s : σ}

theorem ok (s : σ) : RuleQuotes line (.ok s) := fun _ h => nomatch h

theorem fail {fault : Fault} (h : fault.Quotes line) : RuleQuotes line (.fail s fault) := by
  intro f hf
  rw [← Option.some.inj hf]
  exact h

theorem part {fault : Fault} {x : Text} (hx : x <:+: line) (h : fault.parts = [x]) :
    RuleQuotes line (.fail s fault) := fail (.of_parts h hx)

theorem bare {fault : Fault} (h : fault.parts = []) : RuleQuotes line (.fail s fault) :=
  fail (.of_nil h)

theorem map {o : Outcome Fault σ} (h : RuleQuotes line o) (f : σ → τ) :
    RuleQuotes line (o.map f) := h

theorem require {check : Except Fault Unit} {next : Outcome Fault σ}
    (hcheck : CheckQuotes line check) (hnext : RuleQuotes line next) :
    RuleQuotes line (.require s check next) := by
  cases check with
  | ok u => exact hnext
  | error fault => exact fail (hcheck fault rfl)

theorem each {step : σ → α → Outcome Fault σ} {as : List α}
    (h : ∀ s, ∀ a ∈ as, RuleQuotes line (step s a)) : RuleQuotes line (.each step s as) := by
  intro fault hf
  obtain ⟨k, a, hk, _, ha⟩ := Outcome.exists_of_failure_each hf
  exact h _ a (List.mem_of_getElem? hk) fault ha

end RuleQuotes

/-! ## Headers -/

namespace Parameter

theorem quotes_ofWords {isFinal : Bool} {ty name s : Text} (hty : ty <:+: s)
    (hname : name <:+: s) : CheckQuotes s (ofWords isFinal ty name) := by
  unfold ofWords
  split
  · next fault hf =>
    unfold Ty.parse at hf
    split at hf
    · obtain rfl := Except.error.inj hf
      exact .part hty rfl
    · simp at hf
  split
  · exact .part hname rfl
  split
  · exact .ok _
  · exact .part hname rfl

theorem quotes_parse (s : Text) : CheckQuotes s (parse s) := by
  rcases exists_ofWords_of_parse s with hs | ⟨isFinal, ty, hty, name, hname, hs⟩
  · rw [hs]
    exact .part (List.infix_refl s) rfl
  · rw [hs]
    exact quotes_ofWords (infix_of_mem_words hty) (infix_of_mem_words hname)

end Parameter

namespace Header

theorem quotes_signature {h : Header} {line : Text} (hline : Header.parse? line = some h) :
    CheckQuotes line h.signature := by
  obtain ⟨hname, hparams⟩ := infix_of_parse? hline
  unfold signature
  split
  · exact .part hname rfl
  · cases hm : (items h.parameters).mapM Parameter.parse with
    | ok ps => exact .ok _
    | error fault =>
        obtain ⟨item, hitem, hparse⟩ := exists_of_mapM_eq_error hm
        refine .error ((Parameter.quotes_parse item fault hparse).mono ?_)
        exact (infix_of_mem_items hitem).trans hparams

end Header

/-! ## Checks -/

namespace Env

variable {e : Env} {line : Text}

theorem quotes_checkValue {v : Text} (hv : v <:+: line) (ty : Ty) :
    CheckQuotes line (e.checkValue ty v) := by
  unfold checkValue
  split
  · split
    · exact .ok _
    · exact .bare rfl
  split
  · exact .part hv rfl
  split
  · exact .part hv rfl
  split
  · exact .part hv rfl
  split
  · exact .ok _
  · exact .bare rfl

theorem quotes_checkArgument {v : Text} (hv : v <:+: line) (ty : Ty) :
    CheckQuotes line (e.checkArgument ty v) := by
  unfold checkArgument
  split
  · split
    · exact .ok _
    · exact .bare rfl
  split
  · exact .part hv rfl
  split
  · exact .part hv rfl
  split
  · exact .ok _
  · exact .bare rfl

theorem quotes_checkArguments {vs : List Text} (hvs : ∀ v ∈ vs, v <:+: line)
    (ps : List Parameter) : CheckQuotes line (e.checkArguments ps vs) := by
  fun_induction checkArguments e ps vs with
  | case1 p ps v vs fault hf =>
      exact .error (quotes_checkArgument (hvs v List.mem_cons_self) p.ty fault hf)
  | case2 p ps v vs u hu ih => exact ih fun w hw => hvs w (List.mem_cons_of_mem _ hw)
  | case3 => exact .ok _

theorem quotes_checkCall (e : Env) (line : Text) : CheckQuotes line (e.checkCall line) := by
  unfold checkCall
  split
  · exact .part (List.infix_refl line) rfl
  next c hc =>
  obtain ⟨hmethod, hargs⟩ := Call.infix_of_parse? hc
  split
  · exact .part hmethod rfl
  rw [signature]
  cases e.signature? c.method with
  | none => exact .part hmethod rfl
  | some s =>
      simp only
      split
      · exact .part hmethod rfl
      split
      · exact .part hmethod rfl
      · exact quotes_checkArguments (fun v hv => (infix_of_mem_items hv).trans hargs) _

theorem quotes_checkReturn (e : Env) (line : Text) : CheckQuotes line (e.checkReturn line) := by
  unfold checkReturn
  split
  · exact .part (List.infix_refl line) rfl
  split
  · exact .bare rfl
  · exact .ok _

theorem quotes_checkOperand {o : Operand} (ho : ∀ x, o = .name x → x <:+: line) :
    CheckQuotes line (e.checkOperand o) := by
  cases o with
  | literal => exact .ok _
  | name x =>
      rw [checkOperand]
      split
      · exact .part (ho x rfl) rfl
      split
      · exact .bare rfl
      split
      · exact .part (ho x rfl) rfl
      · exact .ok _

theorem quotes_checkOperands {os : List Operand} (hos : ∀ x, .name x ∈ os → x <:+: line) :
    CheckQuotes line (e.checkOperands os) := by
  induction os with
  | nil => exact .ok _
  | cons o os ih =>
      rw [checkOperands]
      split
      · next fault hf =>
        exact .error (quotes_checkOperand (fun x hx => hos x (by rw [hx]; simp)) fault hf)
      · exact ih fun x hx => hos x (List.mem_cons_of_mem _ hx)

/-! ## Rules -/

theorem quotes_frameDeclare {x : Text} (hx : x <:+: line) (f : Frame) (v : Variable) (i : Bool) :
    RuleQuotes line (f.declare x v i) := by
  rw [Frame.declare]
  split
  · exact .part hx rfl
  · exact .ok _

theorem quotes_declare {x : Text} (hx : x <:+: line) (e : Env) (ty : Ty) (isFinal i : Bool) :
    RuleQuotes line (e.declare x ty isFinal i) := by
  unfold declare
  split <;> exact (quotes_frameDeclare hx _ _ i).map _

theorem quotes_onMethodFrame {op : Frame → Outcome Fault Frame} (h : ∀ f, RuleQuotes line (op f))
    (fs : List Frame) : RuleQuotes line (onMethodFrame op fs) := by
  fun_induction onMethodFrame op fs with
  | case1 => exact .ok _
  | case2 f => exact (h f).map _
  | case3 f outer _ ih => exact ih.map _

theorem quotes_assign {x : Text} (hx : x <:+: line) (e : Env) : RuleQuotes line (e.assign x) := by
  unfold assign
  split
  · exact .part hx rfl
  split
  · exact .ok _
  split
  · exact (quotes_onMethodFrame (fun f => quotes_frameDeclare hx f _ _) _).map _
  split <;> exact .ok _

theorem quotes_declareClause {c : Clause} (hc : c.PartOf line) (d : Declarator) (e : Env) :
    RuleQuotes line (declareClause d e c) := by
  unfold declareClause
  split
  · exact .part hc.name rfl
  split
  · exact .part hc.name rfl
  split
  · split
    · exact .part hc.name rfl
    · exact quotes_declare hc.name e _ _ _
  · next v hv =>
    exact .require (quotes_checkValue (hc.value v hv) _) (quotes_declare hc.name e _ _ _)

theorem quotes_assignClause {c : Clause} (hc : c.PartOf line) (e : Env) :
    RuleQuotes line (assignClause line e c) := by
  unfold assignClause
  split
  · exact .part hc.name rfl
  split
  · exact .part hc.name rfl
  split
  · exact .part (List.infix_refl line) rfl
  · next v hv =>
    exact .require (quotes_checkValue (hc.value v hv) _) (quotes_assign hc.name e)

theorem quotes_declareLine (pass : Pass) (e : Env) (line : Text) :
    RuleQuotes line (e.declareLine pass line) := by
  rw [declareLine_eq]
  split
  · exact .ok _
  split
  · exact .part (List.infix_refl line) rfl
  next d hd =>
  have hcs := Declaration.partOf_of_parse? hd
  split
  · next x hx =>
    obtain ⟨c, hc, rfl⟩ := Clause.exists_of_firstRepeated hx
    exact .part (hcs c hc).name rfl
  · exact .each fun t c hc => quotes_declareClause (hcs c hc) _ t

theorem quotes_assignLine (e : Env) (line : Text) : RuleQuotes line (e.assignLine line) := by
  unfold assignLine
  split
  · exact .part (List.infix_refl line) rfl
  next cs hparse =>
  have hcs := Assignment.partOf_of_parse? hparse
  split
  · next x hx =>
    obtain ⟨c, hc, rfl⟩ := Clause.exists_of_firstRepeated hx
    exact .part (hcs c hc).name rfl
  · exact .each fun t c hc => quotes_assignClause (hcs c hc) t

theorem quotes_openBlock (e : Env) (line : Text) : RuleQuotes line (e.openBlock line) := by
  unfold openBlock
  split
  · exact .bare rfl
  split
  · exact .part (Condition.infix_text line) rfl
  · next os hos =>
    refine .require (quotes_checkOperands fun x hx => ?_) (.ok _)
    exact (Operand.infix_of_mem_operands? hos hx).trans (Condition.infix_text line)

theorem quotes_closeBlock (afterReturn : Bool) (e : Env) (line : Text) :
    RuleQuotes line (e.closeBlock afterReturn) := by
  unfold closeBlock pop
  split
  · exact .bare rfl
  split
  · exact .bare rfl
  · exact .ok _

theorem quotes_headerLine_survey (e : Env) (line : Text) :
    RuleQuotes line (e.headerLine .survey line) := by
  simp only [headerLine]
  split
  · exact .part (List.infix_refl line) rfl
  next hd hhd =>
  have hname := (Header.infix_of_parse? hhd).1
  split
  · exact .part hname rfl
  split
  · next fault hf => exact .fail (Header.quotes_signature hhd fault hf)
  · next s hs =>
    unfold addMethod
    split
    · exact .part (by rw [Header.name_of_signature hs]; exact hname) rfl
    · exact .ok _

/-- The parameters of the method that a line announces, as they are known, stand on the
line. -/
def Announces (e : Env) (line : Text) : Prop :=
  ∀ hd s, Header.parse? line = some hd → e.locals = [] → e.signature? hd.name = some s →
    ∀ p ∈ s.parameters, p.name <:+: line

theorem quotes_headerLine_inspection (h : e.Announces line) :
    RuleQuotes line (e.headerLine .inspection line) := by
  simp only [headerLine]
  split
  · exact .part (List.infix_refl line) rfl
  next hd hhd =>
  have hname := (Header.infix_of_parse? hhd).1
  split
  · exact .part hname rfl
  next hg =>
  have hl : e.locals = [] := isGlobal_iff.mp (by simpa using hg)
  rw [enterMethod, signature]
  cases hs : e.signature? hd.name with
  | none => exact .part hname rfl
  | some s => exact .each fun t p hp => quotes_declare (h hd s hhd hl hs p hp) t _ _ _

theorem quotes_surveyLine (e : Env) (line : Text) : RuleQuotes line (e.surveyLine line) := by
  unfold surveyLine
  split
  · exact quotes_headerLine_survey e line
  · exact quotes_declareLine .survey e line
  · exact quotes_assignLine e line
  · exact .ok _

theorem quotes_inspectLine (afterReturn : Bool) (h : e.Announces line) :
    RuleQuotes line (e.inspectLine afterReturn line) := by
  unfold inspectLine
  split
  · exact .part (List.infix_refl line) rfl
  next rule _ =>
  cases rule with
  | refuseComment => exact .bare rfl
  | declare => exact quotes_declareLine .inspection e line
  | enterMethod => exact quotes_headerLine_inspection h
  | openBlock => exact quotes_openBlock e line
  | closeBlock => exact quotes_closeBlock afterReturn e line
  | call => exact .require (quotes_checkCall e line) (.ok _)
  | assign =>
      rw [Rule.apply]
      split
      · exact .ok _
      · exact quotes_assignLine e line
  | leave => exact .require (quotes_checkReturn e line) (.ok _)

end Env

/-! ## Faults of a program -/

namespace Verifier

/-- The inspection knows the method of a header from the survey of the same line. -/
theorem announces_inspectionTo {lines : List Text} {k : Nat} {raw : Text}
    (hok : (start.survey lines).failure = none) (hk : lines[k]? = some raw)
    (hs : isSkippable raw = false) (hpre : (inspectionTo lines k).failure = none) :
    (inspectionTo lines k).state.env.Announces (trim raw) := by
  intro hd s hhd hl hsig
  have hc : Category.of (trim raw) = .methodDeclaration :=
    (Category.admits_iff_of_eq (by simp) _).mp (by rw [Category.admits, hhd]; rfl)
  obtain ⟨hd', s', hhd', hsig', _, hknown⟩ :=
    exists_signature_of_nesting hok hk hs hc (nesting_eq_zero hok hpre hl)
  obtain rfl : hd = hd' := Option.some.inj (hhd.symm.trans hhd')
  rw [env_inspectionTo_eq hl, hknown] at hsig
  obtain rfl := Option.some.inj hsig
  exact fun p hp => (Header.infix_of_signature hsig' p hp).trans (Header.infix_of_parse? hhd).2

theorem Finding.quotes {lines : List Text} {d : Diagnostic} (h : Finding lines d) :
    d = ⟨.unclosedScope, lines.length + 1⟩ ∨
      ∃ k raw, d.line = k + 1 ∧ lines[k]? = some raw ∧ isSkippable raw = false ∧
        d.fault.Quotes (trim raw) := by
  cases h with
  | @survey _ k raw hk hs hd hpre hstep =>
      exact Or.inr ⟨k, raw, hd, hk, hs,
        Env.quotes_surveyLine _ _ _ (Progress.failure_survey hstep).2⟩
  | unclosed => exact Or.inl rfl
  | @inspection _ k raw hok hk hs hd hpre hstep =>
      rw [Progress.failure_inspect] at hstep
      exact Or.inr ⟨k, raw, hd, hk, hs,
        Env.quotes_inspectLine _ (announces_inspectionTo hok hk hs hpre) _ hstep⟩

end Verifier

/-- A diagnostic points past the end of a source that leaves a block open, and otherwise at a
line of the source that is neither blank nor a comment and of which it carries parts. -/
theorem diagnostic_quotes_its_line {source : Text} {d : Diagnostic}
    (h : verifySource source = some d) :
    (d.fault = .unclosedScope ∧ d.line = (Text.lines source).length + 1 ∧
      Text.line? source d.line = none) ∨
    (1 ≤ d.line ∧ d.line ≤ (Text.lines source).length ∧
      ∃ text, Text.line? source d.line = some text ∧ isSkippable text = false ∧
        ∀ part ∈ d.fault.parts, part <:+: trim text) := by
  rcases (finding_of_verify h).quotes with rfl | ⟨k, raw, hline, hk, hs, hq⟩
  · exact Or.inl ⟨rfl, rfl, by simp [line?_succ]⟩
  · have hlt : k < (Text.lines source).length := (List.getElem?_eq_some_iff.mp hk).1
    refine Or.inr ⟨by omega, by omega, raw, ?_, hs, hq⟩
    rw [hline, line?_succ]
    exact hk

/-- A method with two parameters of one name, after a line that says nothing. -/
def sampleTwins : Text := "// twins\n  void f(int a, final double a) \x7b\nreturn;\n\x7d\n".toList

theorem diagnostic_of_sampleTwins :
    verifySource sampleTwins = some ⟨.variableAlreadyDeclared "a".toList, 2⟩ ∧
      (((Fault.variableAlreadyDeclared "a".toList) = .unclosedScope ∧
        2 = (Text.lines sampleTwins).length + 1 ∧ Text.line? sampleTwins 2 = none) ∨
      (1 ≤ 2 ∧ 2 ≤ (Text.lines sampleTwins).length ∧
        ∃ text, Text.line? sampleTwins 2 = some text ∧ isSkippable text = false ∧
          ∀ part ∈ (Fault.variableAlreadyDeclared "a".toList).parts, part <:+: trim text)) := by
  have h : verifySource sampleTwins = some ⟨.variableAlreadyDeclared "a".toList, 2⟩ := by
    decide +kernel
  exact ⟨h, diagnostic_quotes_its_line h⟩

end SJava
