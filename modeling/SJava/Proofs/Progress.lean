/-
The two walks without the lines that say nothing and without line numbers.

A verifier passes over blank lines and comments, and its line number only dates the fault
that ends a run.  `Progress` is what is left of its state, and `significant` what is left
of the lines.  Each walk over all lines is then a walk over the significant ones
(`view_each_surveyLine`, `view_each_inspectLine`) whose steps are given by the category of
the line alone.
-/
import SJava.Proofs.Frames
import SJava.Proofs.Grammar

namespace SJava

open Text

/-- The lines that say something, without the white space around them. -/
def significant (lines : List Text) : List Text :=
  lines.filterMap fun raw => if isSkippable raw then none else some (trim raw)

namespace Env

/-- What the survey does with a line outside every block. -/
def surveyLine (e : Env) (line : Text) : Outcome Fault Env :=
  match Category.of line with
  | .methodDeclaration => e.headerLine .survey line
  | .variableDeclaration => e.declareLine .survey line
  | .variableAssignment => e.assignLine line
  | _ => .ok e

def inspectLine (afterReturn : Bool) (e : Env) (line : Text) : Outcome Fault Env :=
  match Rule.standard (Category.of line) with
  | none => .fail e (.unknownLineSyntax line)
  | some rule => rule.apply afterReturn e line

end Env

/-- What a verifier knows at a line, apart from the number of the line. -/
structure Progress where
  env : Env
  nesting : Int
  afterReturn : Bool
  deriving DecidableEq, Repr

namespace Progress

def start : Progress := ⟨Env.empty, 0, false⟩

def setEnv (p : Progress) (e : Env) : Progress := { p with env := e }

def survey (p : Progress) (line : Text) : Outcome Fault Progress :=
  ((if p.nesting = 0 then p.env.surveyLine line else .ok p.env).map p.setEnv).andThen
    fun p => .ok { p with nesting := p.nesting + (Category.of line).change }

def inspect (p : Progress) (line : Text) : Outcome Fault Progress :=
  ((p.env.inspectLine p.afterReturn line).map p.setEnv).andThen
    fun p => .ok { p with afterReturn := Category.of line = .returnStatement }

theorem result?_survey (p : Progress) (line : Text) :
    (p.survey line).result? =
      (if p.nesting = 0 then (p.env.surveyLine line).result? else some p.env).map fun e =>
        ⟨e, p.nesting + (Category.of line).change, p.afterReturn⟩ := by
  rw [survey, Outcome.result?_andThen, Outcome.result?_map]
  by_cases h : p.nesting = 0
  · rw [if_pos h, if_pos h]
    cases (p.env.surveyLine line).result? <;> rfl
  · rw [if_neg h, if_neg h]
    rfl

theorem result?_inspect (p : Progress) (line : Text) :
    (p.inspect line).result? =
      (p.env.inspectLine p.afterReturn line).result?.map fun e =>
        ⟨e, p.nesting, Category.of line = .returnStatement⟩ := by
  rw [inspect, Outcome.result?_andThen, Outcome.result?_map]
  cases (p.env.inspectLine p.afterReturn line).result? <;> rfl

theorem failure_inspect (p : Progress) (line : Text) :
    (p.inspect line).failure = (p.env.inspectLine p.afterReturn line).failure := by
  rw [inspect]
  cases h : (p.env.inspectLine p.afterReturn line).failure <;>
    simp [Outcome.andThen, Outcome.map, h, Outcome.ok]

theorem nesting_inspect (p : Progress) (line : Text) :
    (p.inspect line).state.nesting = p.nesting :=
  Outcome.state_andThen (P := fun q : Progress => q.nesting = p.nesting) rfl fun _ hq => hq

theorem atTop_survey {p : Progress} (hp : p.env.AtTop) (line : Text) :
    (p.survey line).state.env.AtTop := by
  have hline : (p.env.surveyLine line).state.AtTop := by
    unfold Env.surveyLine
    split
    · exact hp.headerLine line
    · exact hp.declareLine line
    · exact hp.assignLine line
    · exact hp
  refine Outcome.state_andThen (P := fun q : Progress => q.env.AtTop) ?_ fun q hq => hq
  split
  · exact hline
  · exact hp

theorem atTop_each_survey {p : Progress} (hp : p.env.AtTop) (lines : List Text) :
    (Outcome.each survey p lines).state.env.AtTop :=
  Outcome.state_each (P := fun q : Progress => q.env.AtTop)
    (fun _ line hq => atTop_survey hq line) hp lines

theorem atTop_of_survey {p : Progress} {lines : List Text}
    (h : (Outcome.each survey start lines).result? = some p) : p.env.AtTop := by
  rw [← (Outcome.result?_eq_some_iff.mp h).2]
  exact atTop_each_survey Env.atTop_empty lines

end Progress

namespace Verifier

/-- What the verifier knows, apart from its rules and the number of the line. -/
def progress (v : Verifier) : Progress := ⟨v.env, v.nesting, v.afterReturn⟩

theorem view_settle (v : Verifier) (o : Outcome Fault Env) :
    (v.settle o).view progress Diagnostic.fault = o.map v.progress.setEnv := by
  obtain ⟨e, f⟩ := o
  cases f <;> rfl

/-! ## Survey -/

/-- Which grammars admit a line of a category that the survey passes over. -/
theorem admits_eq_false {line : Text} {c : Category} (hc : Category.of line ≠ c)
    (hd : Category.of line ≠ .variableDeclaration)
    (hm : c ∈ [.methodDeclaration, .variableDeclaration, .variableAssignment]) :
    c.admits line = false := by
  cases h : c.admits line with
  | false => rfl
  | true =>
      simp only [List.mem_cons, List.not_mem_nil, or_false] at hm
      rcases hm with rfl | rfl | rfl
      · exact absurd ((Category.admits_iff_of_eq (by simp) line).mp h) hc
      · exact absurd ((Category.admits_iff_of_eq (by simp) line).mp h) hc
      · exact ((Category.of_eq_of_variableAssignment h).elim hc hd).elim

theorem surveyHeader_eq (v : Verifier) (line : Text) :
    v.surveyHeader line =
      if Category.of line = .methodDeclaration ∧ v.nesting = 0 then
        v.settle (v.env.headerLine .survey line)
      else .ok v := by
  have hm := Category.admits_iff_of_eq (c := .methodDeclaration) (by simp) line
  simp only [surveyHeader, Bool.and_eq_true, beq_iff_eq, hm]

/-- The declarations and assignments of a line.  An assignment may be taken for a
declaration, and then the declaration fails before the assignment is tried. -/
theorem view_surveyStatement (v : Verifier) (line : Text) :
    ((v.surveyDeclaration line).andThen fun v => v.surveyAssignment line).view progress
        Diagnostic.fault =
      if v.nesting = 0 then
        match Category.of line with
        | .variableDeclaration => (v.env.declareLine .survey line).map v.progress.setEnv
        | .variableAssignment => (v.env.assignLine line).map v.progress.setEnv
        | _ => .ok v.progress
      else .ok v.progress := by
  by_cases hn : v.nesting = 0
  · rw [if_pos hn]
    by_cases hc : Category.of line = .variableDeclaration
    · have hd := (Category.admits_iff_of_eq (by simp) line).mpr hc
      have hdecl : v.surveyDeclaration line = v.settle (v.env.declareLine .survey line) := by
        simp [surveyDeclaration, hd, hn]
      simp only [hdecl, hc]
      rw [← view_settle]
      cases ha : Category.variableAssignment.admits line with
      | true =>
          have hfail : v.env.declareLine .survey line = .fail v.env (.declarationSyntax line) := by
            simp [Env.declareLine_eq, Declaration.parse?_eq_none ha]
          rw [hfail]
          rfl
      | false =>
          have hid : (fun v => surveyAssignment v line) = Outcome.ok := by
            funext w
            simp [surveyAssignment, ha]
          rw [hid, Outcome.andThen_ok_right]
    · have hd := admits_eq_false (c := .variableDeclaration) hc hc (by simp)
      have hdecl : v.surveyDeclaration line = .ok v := by simp [surveyDeclaration, hd]
      rw [hdecl, Outcome.andThen_ok]
      by_cases ha : Category.of line = .variableAssignment
      · have ha' := Category.admits_of_of_eq ha (by decide) (by decide)
        simp only [surveyAssignment, ha, ha', hn]
        exact view_settle v _
      · have ha' := admits_eq_false ha hc (by simp)
        simp only [surveyAssignment, ha', Bool.false_and, Bool.false_eq_true, if_false]
        cases h : Category.of line <;> rfl
  · have hdecl : v.surveyDeclaration line = .ok v := by simp [surveyDeclaration, hn]
    have hassign : v.surveyAssignment line = .ok v := by simp [surveyAssignment, hn]
    rw [if_neg hn, hdecl, Outcome.andThen_ok, hassign]
    rfl

theorem view_surveyWords (v : Verifier) (line : Text) :
    ((v.surveyHeader line).andThen fun w =>
        (({ w with nesting := w.nesting + nestingChange line } : Verifier).surveyDeclaration
          line).andThen fun w => w.surveyAssignment line).view progress Diagnostic.fault =
      v.progress.survey line := by
  have hrest (w : Verifier) := view_surveyStatement
    { w with nesting := w.nesting + nestingChange line } line
  simp only [surveyHeader_eq, nestingChange_eq] at hrest ⊢
  rw [Progress.survey, Env.surveyLine]
  generalize Category.of line = c at hrest ⊢
  by_cases hm : c = .methodDeclaration
  · -- A header holds no statement, whatever the survey has counted by then.
    subst hm
    refine (Outcome.view_andThen (fun p => .ok { p with nesting := p.nesting + 1 })
      (fun w => ?_) _).trans ?_
    · rw [hrest]
      split <;> rfl
    · by_cases hn : v.nesting = 0
      · rw [if_pos ⟨rfl, hn⟩, if_pos (show v.progress.nesting = 0 from hn), view_settle]
        rfl
      · rw [if_neg (fun h => hn h.2), if_neg (show ¬ v.progress.nesting = 0 from hn)]
        rfl
  · rw [if_neg (fun h => hm h.1), Outcome.andThen_ok, hrest]
    -- Declarations and assignments leave the count of blocks alone.
    have hkeep (o : Outcome Fault Env) : o.map v.progress.setEnv =
        (o.map v.progress.setEnv).andThen fun p => .ok { p with nesting := p.nesting + 0 } := by
      simp only [Int.add_zero]
      exact (Outcome.andThen_ok_right _).symm
    cases c with
    | methodDeclaration => exact absurd rfl hm
    | variableDeclaration | variableAssignment =>
        simp only [Category.change, Int.add_zero] at hkeep ⊢
        rw [← hkeep, show v.progress.nesting = v.nesting from rfl]
        split <;> rfl
    | _ =>
        simp only [ite_self]
        rfl

theorem view_surveyLine (v : Verifier) (raw : Text) :
    (v.surveyLine raw).view progress Diagnostic.fault =
      if isSkippable raw then .ok v.progress else v.progress.survey (trim raw) := by
  cases hs : isSkippable raw with
  | true =>
      simp only [surveyLine, hs, if_true]
      rfl
  | false =>
      simp only [surveyLine, hs, Bool.false_eq_true, if_false]
      exact view_surveyWords { v with line := v.line + 1 } (trim raw)

/-! ## Inspection -/

theorem rules_surveyLine (v : Verifier) (raw : Text) :
    (v.surveyLine raw).state.rules = v.rules := by
  have hsettle (w : Verifier) (o : Outcome Fault Env) : (w.settle o).state.rules = w.rules := rfl
  simp only [surveyLine]
  split
  · rfl
  · refine Outcome.state_andThen (P := fun w : Verifier => w.rules = v.rules) ?_ fun w hw => ?_
    · rw [surveyHeader]
      split <;> rfl
    · refine Outcome.state_andThen (P := fun w : Verifier => w.rules = v.rules) ?_ fun w hw => ?_
      · rw [surveyDeclaration]
        split
        · rw [hsettle, hw]
        · exact hw
      · rw [surveyAssignment]
        split
        · rw [hsettle, hw]
        · exact hw

theorem rules_inspectLine (v : Verifier) (raw : Text) :
    (v.inspectLine raw).state.rules = v.rules := by
  simp only [inspectLine]
  split
  · rfl
  · split
    · rfl
    · exact Outcome.state_andThen (P := fun w : Verifier => w.rules = v.rules) rfl fun w hw => hw

theorem view_inspectLine {v : Verifier} (hv : v.rules = Rule.standard) (raw : Text) :
    (v.inspectLine raw).view progress Diagnostic.fault =
      if isSkippable raw then .ok v.progress else v.progress.inspect (trim raw) := by
  cases hs : isSkippable raw with
  | true =>
      simp only [inspectLine, hs, if_true]
      rfl
  | false =>
      simp only [inspectLine, hs, Bool.false_eq_true, if_false]
      rw [Progress.inspect, Env.inspectLine, hv]
      cases Rule.standard (Category.of (trim raw)) with
      | none => rfl
      | some rule =>
          refine (Outcome.view_andThen (fun p => .ok { p with
            afterReturn := Category.of (trim raw) = .returnStatement }) (fun w => rfl) _).trans ?_
          rw [applyRule, view_settle]
          rfl

/-! ## Runs -/

theorem view_each_surveyLine (v : Verifier) (lines : List Text) :
    (Outcome.each surveyLine v lines).view progress Diagnostic.fault =
      Outcome.each Progress.survey v.progress (significant lines) := by
  refine Outcome.each_filterMap (P := fun _ => True) (fun _ _ _ => trivial) ?_ trivial lines
  intro w raw _
  rw [view_surveyLine]
  split <;> rfl

theorem view_each_inspectLine {v : Verifier} (hv : v.rules = Rule.standard) (lines : List Text) :
    (Outcome.each inspectLine v lines).view progress Diagnostic.fault =
      Outcome.each Progress.inspect v.progress (significant lines) := by
  refine Outcome.each_filterMap (P := fun w : Verifier => w.rules = Rule.standard)
    (fun w raw hw => (rules_inspectLine w raw).trans hw) ?_ hv lines
  intro w raw hw
  rw [view_inspectLine hw]
  split <;> rfl

/-! ## Points of a run -/

/-- The survey of the first `k` lines of a program. -/
def surveyTo (lines : List Text) (k : Nat) : Outcome Diagnostic Verifier :=
  Outcome.each surveyLine start (lines.take k)

def surveyed (lines : List Text) : Verifier := (start.survey lines).state

/-- The inspection of the first `k` lines of a program, after the survey of all of them. -/
def inspectionTo (lines : List Text) (k : Nat) : Outcome Diagnostic Verifier :=
  Outcome.each inspectLine { surveyed lines with line := 0, afterReturn := false } (lines.take k)

theorem run_eq {lines : List Text} (h : (start.survey lines).failure = none) :
    start.run lines = (inspectionTo lines lines.length).andThen (checkClosed lines.length) := by
  rw [run, Outcome.andThen, h, inspectionTo, List.take_length]
  rfl

theorem state_checkClosed (count : Nat) (v : Verifier) : (checkClosed count v).state = v := by
  rw [checkClosed]
  split <;> rfl

theorem surveyed_eq (lines : List Text) : surveyed lines = (surveyTo lines lines.length).state := by
  rw [surveyed, survey, surveyTo, List.take_length]
  exact Outcome.state_andThen (P := (· = (Outcome.each surveyLine start lines).state)) rfl
    fun v hv => (state_checkClosed _ v).trans hv

/-- A run ends where its survey ends or where its inspection does. -/
theorem state_run {P : Verifier → Prop} {lines : List Text}
    (hs : P (surveyTo lines lines.length).state) (hi : P (inspectionTo lines lines.length).state) :
    P (start.run lines).state := by
  cases hok : (start.survey lines).failure with
  | some d =>
      have hrun : start.run lines = start.survey lines := by rw [run, Outcome.andThen, hok]
      rw [hrun]
      show P (surveyed lines)
      rwa [surveyed_eq]
  | none =>
      rw [run_eq hok]
      refine Outcome.state_andThen hi fun v hv => ?_
      rwa [state_checkClosed]

theorem surveyTo_succ {lines : List Text} {k : Nat} {raw : Text} (h : lines[k]? = some raw) :
    surveyTo lines (k + 1) = (surveyTo lines k).andThen fun v => v.surveyLine raw :=
  Outcome.each_take_succ h start

theorem inspectionTo_succ {lines : List Text} {k : Nat} {raw : Text} (h : lines[k]? = some raw) :
    inspectionTo lines (k + 1) = (inspectionTo lines k).andThen fun v => v.inspectLine raw :=
  Outcome.each_take_succ h _

/-- A survey that succeeds has done so line by line, and has counted as many ends of blocks
as beginnings. -/
theorem surveyTo_of_survey {lines : List Text} (h : (start.survey lines).failure = none) :
    (∀ k, (surveyTo lines k).failure = none) ∧ (surveyed lines).nesting = 0 := by
  rw [survey, Outcome.failure_andThen_eq_none] at h
  obtain ⟨hall, hclosed⟩ := h
  constructor
  · intro k
    rw [← List.take_append_drop k lines] at hall
    exact Outcome.failure_each_of_append hall
  · rw [surveyed_eq, surveyTo, List.take_length]
    rw [checkClosed] at hclosed
    split at hclosed
    · simp [Outcome.fail] at hclosed
    · next hn => exact Decidable.not_not.mp fun hne => hn (Or.inl hne)

theorem view_surveyTo (lines : List Text) (k : Nat) :
    (surveyTo lines k).view progress Diagnostic.fault =
      Outcome.each Progress.survey Progress.start (significant (lines.take k)) :=
  view_each_surveyLine start _

theorem rules_surveyed (lines : List Text) : (surveyed lines).rules = Rule.standard := by
  rw [surveyed_eq, surveyTo]
  exact Outcome.state_each (P := fun v : Verifier => v.rules = Rule.standard)
    (fun v raw hv => (rules_surveyLine v raw).trans hv) rfl _

theorem view_inspectionTo (lines : List Text) (k : Nat) :
    (inspectionTo lines k).view progress Diagnostic.fault =
      Outcome.each Progress.inspect ⟨(surveyed lines).env, (surveyed lines).nesting, false⟩
        (significant (lines.take k)) :=
  view_each_inspectLine (v := { surveyed lines with line := 0, afterReturn := false })
    (rules_surveyed lines) _

theorem rules_inspectionTo (lines : List Text) (k : Nat) :
    (inspectionTo lines k).state.rules = Rule.standard :=
  Outcome.state_each (P := fun v : Verifier => v.rules = Rule.standard)
    (s := { surveyed lines with line := 0, afterReturn := false })
    (fun v raw hv => (rules_inspectLine v raw).trans hv) (rules_surveyed lines) _

theorem result?_survey_succ {lines : List Text} {k : Nat} {raw : Text} (hk : lines[k]? = some raw)
    (hs : isSkippable raw = false) (h : (surveyTo lines (k + 1)).failure = none) :
    ((surveyTo lines k).state.progress.survey (trim raw)).result? =
      some (surveyTo lines (k + 1)).state.progress := by
  have hview := view_surveyLine (surveyTo lines k).state raw
  rw [hs] at hview
  rw [surveyTo_succ hk] at h ⊢
  obtain ⟨hpre, hstep⟩ := Outcome.failure_andThen_eq_none.mp h
  rw [Outcome.andThen, hpre]
  exact (congrArg Outcome.result? hview).symm.trans
    (by rw [Outcome.result?_view, Outcome.failure_eq_none_iff.mp hstep]; rfl)

theorem result?_inspect_succ {lines : List Text} {k : Nat} {raw : Text} (hk : lines[k]? = some raw)
    (hs : isSkippable raw = false) (h : (inspectionTo lines (k + 1)).failure = none) :
    ((inspectionTo lines k).state.progress.inspect (trim raw)).result? =
      some (inspectionTo lines (k + 1)).state.progress := by
  have hview := view_inspectLine (rules_inspectionTo lines k) raw
  rw [hs] at hview
  rw [inspectionTo_succ hk] at h ⊢
  obtain ⟨hpre, hstep⟩ := Outcome.failure_andThen_eq_none.mp h
  rw [Outcome.andThen, hpre]
  exact (congrArg Outcome.result? hview).symm.trans
    (by rw [Outcome.result?_view, Outcome.failure_eq_none_iff.mp hstep]; rfl)

end Verifier

/-! ## The middle of a line -/

/-- An environment in the middle of a line: some clauses of a declaration or an assignment
have taken effect, or some parameters of a method have been declared. -/
inductive Env.Midway (line : Text) (e : Env) : Env → Prop
  | declaring {d : Declaration} (hd : Declaration.parse? line = some d) (j : Nat) :
      Midway line e (Outcome.each (declareClause d.declarator) e (d.clauses.take j)).state
  | assigning {cs : List Clause} (hcs : Assignment.parse? line = some cs) (j : Nat) :
      Midway line e (Outcome.each (assignClause line) e (cs.take j)).state
  | entering {hd : Header} {s : Signature} (hhd : Header.parse? line = some hd)
      (hs : e.signature? hd.name = some s) (j : Nat) :
      Midway line e (Outcome.each (fun e p => e.declare p.name p.ty p.isFinal true) e.push
        (s.parameters.take j)).state

/-- A property of the environment holds at every point of a run: before and after every line
of both walks, in the middle of every line, and at the end, which a fault may have brought
on. -/
structure Verifier.Throughout (lines : List Text) (P : Env → Prop) : Prop where
  survey : ∀ k, P (surveyTo lines k).state.env
  inspection : ∀ k, P (inspectionTo lines k).state.env
  midSurvey : ∀ k raw e, lines[k]? = some raw →
    Env.Midway (trim raw) (surveyTo lines k).state.env e → P e
  midInspection : ∀ k raw e, lines[k]? = some raw →
    Env.Midway (trim raw) (inspectionTo lines k).state.env e → P e
  finish : P (start.run lines).state.env

theorem Verifier.Throughout.imp {P Q : Env → Prop} {lines : List Text} (h : Throughout lines P)
    (hpq : ∀ e, P e → Q e) : Throughout lines Q where
  survey k := hpq _ (h.survey k)
  inspection k := hpq _ (h.inspection k)
  midSurvey k raw e hk hmid := hpq e (h.midSurvey k raw e hk hmid)
  midInspection k raw e hk hmid := hpq e (h.midInspection k raw e hk hmid)
  finish := hpq _ h.finish

/-- What declarations and assignments keep holds in the middle of a line if it holds before the
line and once a body is entered. -/
theorem Env.Midway.state {P : Env → Prop} {line : Text} {e e' : Env} (hmid : Midway line e e')
    (hdeclare : ∀ t x ty isFinal i, P t → P (t.declare x ty isFinal i).state)
    (hassign : ∀ t x, P t → P (t.assign x).state) (he : P e) (hpush : P e.push) : P e' := by
  cases hmid with
  | declaring _ j =>
      exact Outcome.state_each (fun t c ht =>
        state_declareClause ht (fun x ty isFinal i => hdeclare t x ty isFinal i ht) _ c) he _
  | assigning _ j =>
      exact Outcome.state_each
        (fun t c ht => state_assignClause ht (fun x => hassign t x ht) line c) he _
  | entering _ _ j =>
      exact Outcome.state_each (fun t p ht => hdeclare t p.name p.ty p.isFinal true ht) hpush _

end SJava
