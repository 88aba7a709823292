/-
A program given to one verifier in parts.

The survey only adds to what is known: methods, global variables, and values of those it
knows already (`Env.Below.surveyLine`).  A run that succeeds ends outside every block with
exactly what its survey left, so a second run on the same verifier surveys its lines as if
they followed those of the first.  The first lines were inspected with less known than the
whole program knows, and knowing more does no harm.
-/
import SJava.Proofs.Segments
import SJava.Proofs.Weakening

namespace SJava

open Text Outcome

/-! ## The survey adds -/

namespace Frame

theorem findsBelow_declare (f : Frame) (x : Text) (v : Variable) (i : Bool) :
    FindsBelow f.find? (f.declare x v i).state.find? := by
  intro y b hb
  refine ⟨b, ?_, .refl b⟩
  cases hx : f.declares x with
  | true =>
      rw [declare_of_declares hx]
      exact hb
  | false =>
      have hne : y ≠ x := by
        rintro rfl
        simp [declares, hb] at hx
      rw [find?_declare_of_ne hne]
      exact hb

theorem findsBelow_assign (f : Frame) (x : Text) : FindsBelow f.find? (f.assign x).find? := by
  intro y b hb
  by_cases hy : y = x
  · subst hy
    refine ⟨{ b with isInitialized := true }, ?_, rfl, fun _ => rfl⟩
    rw [find?_assign_self, hb]
    rfl
  · refine ⟨b, ?_, .refl b⟩
    rw [find?_assign_of_ne hy]
    exact hb

end Frame

namespace Env

theorem globals_headerLine_survey (e : Env) (line : Text) :
    (e.headerLine .survey line).state.globals = e.globals := by
  simp only [headerLine]
  split
  · rfl
  split
  · rfl
  split
  · rfl
  · unfold addMethod
    split <;> rfl

theorem findsBelow_globals_assign {t : Env} (ht : t.AtTop) (x : Text) :
    FindsBelow t.globals.find? (t.assign x).state.globals.find? := by
  cases hb : t.find? x with
  | none =>
      rw [assign_of_find?_eq_none hb]
      exact .refl _
  | some b =>
      cases hi : b.isInitialized with
      | true =>
          rw [assign_of_isInitialized hb hi]
          exact .refl _
      | false =>
          rw [assign_of_locals_eq_nil ht.locals hb hi]
          exact t.globals.findsBelow_assign x

namespace Below

variable {e t : Env}

theorem atTop (h : e.Below t) (hl : e.locals = []) : t.AtTop :=
  ⟨List.length_eq_zero_iff.mp (by rw [h.length, hl]; rfl), h.allGlobal⟩

/-- An environment that a survey reached with the methods of `t` and more of its globals. -/
theorem trans_globals (h : e.Below t) (hl : e.locals = []) {u : Env} (hu : u.AtTop)
    (hm : u.methods = t.methods) (hg : FindsBelow t.globals.find? u.globals.find?) :
    e.Below u := by
  refine .of_locals_eq_nil (fun m s hs => ?_) (h.globals.trans hg) hl hu
  rw [signature?, hm]
  exact h.signature m s hs

theorem surveyLine (h : e.Below t) (hl : e.locals = []) (line : Text) :
    e.Below (t.surveyLine line).state := by
  unfold Env.surveyLine
  split
  · refine .of_locals_eq_nil
      (fun m s hs => signature?_headerLine_survey (h.signature m s hs) line) ?_ hl
      ((h.atTop hl).headerLine line)
    rw [globals_headerLine_survey]
    exact h.globals
  · refine state_declareLine (P := fun u => e.Below u) h fun _ u hu x ty isFinal i => ?_
    refine hu.trans_globals hl ((hu.atTop hl).declare x ty isFinal i)
      (methods_declare u x ty isFinal i) ?_
    rw [Env.declare, (hu.atTop hl).locals]
    exact u.globals.findsBelow_declare x _ i
  · refine state_assignLine (P := fun u => e.Below u) h fun u hu x => ?_
    exact hu.trans_globals hl ((hu.atTop hl).assign x) (methods_assign u x)
      (findsBelow_globals_assign (hu.atTop hl) x)
  · exact h

end Below
end Env

namespace Progress

theorem below_survey {e : Env} (hl : e.locals = []) {p : Progress} (h : e.Below p.env)
    (line : Text) : e.Below (p.survey line).state.env := by
  refine state_andThen (P := fun q : Progress => e.Below q.env) ?_ fun _ hq => hq
  split
  · exact h.surveyLine hl line
  · exact h

theorem below_each_survey {e : Env} (he : e.AtTop) {p q : Progress} (hp : p.env = e)
    {lines : List Text} (h : (each survey p lines).result? = some q) : e.Below q.env := by
  have hself : e.Below e := .of_locals_eq_nil (fun _ _ hs => hs) (.refl _) he.locals he
  rw [← (result?_eq_some_iff.mp h).2]
  exact state_each (P := fun q : Progress => e.Below q.env)
    (fun q line hq => below_survey he.locals hq line) (hp ▸ hself) lines

theorem afterReturn_survey (p : Progress) (line : Text) :
    (p.survey line).state.afterReturn = p.afterReturn :=
  state_andThen (P := fun q : Progress => q.afterReturn = p.afterReturn) rfl fun _ hq => hq

end Progress

/-! ## Runs that succeed -/

namespace Verifier

theorem closed_of_checkClosed {o : Outcome Diagnostic Verifier} {n : Nat}
    (h : (o.andThen (checkClosed n)).failure = none) :
    o.failure = none ∧ (o.andThen (checkClosed n)).state = o.state ∧ o.state.nesting = 0 ∧
      o.state.env.locals = [] := by
  obtain ⟨ho, hclosed⟩ := failure_andThen_eq_none.mp h
  refine ⟨ho, ?_, ?_⟩
  · rw [andThen, ho]
    exact state_checkClosed n o.state
  · unfold checkClosed at hclosed
    split at hclosed
    · simp [fail] at hclosed
    · next hn =>
      simp only [not_or, Decidable.not_not, Bool.not_eq_true, Bool.not_eq_false'] at hn
      exact ⟨hn.1, Env.isGlobal_iff.mp hn.2⟩

theorem result?_survey_of_failure {v : Verifier} {lines : List Text}
    (h : (v.survey lines).failure = none) :
    (each Progress.survey v.progress (significant lines)).result? =
        some (v.survey lines).state.progress ∧ (v.survey lines).state.nesting = 0 := by
  obtain ⟨ho, hstate, hn, _⟩ := closed_of_checkClosed h
  rw [survey, hstate]
  refine ⟨?_, hn⟩
  have hview := view_each_surveyLine { v with line := 0 } lines
  rw [show v.progress = progress { v with line := 0 } from rfl, ← hview, result?_view,
    failure_eq_none_iff.mp ho]
  rfl

theorem result?_inspect_of_failure {v : Verifier} (hv : v.rules = Rule.standard)
    {lines : List Text} (h : (v.inspect lines).failure = none) :
    (each Progress.inspect ⟨v.env, v.nesting, false⟩ (significant lines)).result? =
        some (v.inspect lines).state.progress ∧ (v.inspect lines).state.env.locals = [] := by
  obtain ⟨ho, hstate, _, hl⟩ := closed_of_checkClosed h
  rw [inspect, hstate]
  refine ⟨?_, hl⟩
  have hview := view_each_inspectLine (v := { v with line := 0, afterReturn := false }) hv lines
  rw [show (⟨v.env, v.nesting, false⟩ : Progress) =
      progress { v with line := 0, afterReturn := false } from rfl, ← hview, result?_view,
    failure_eq_none_iff.mp ho]
  rfl

theorem rules_walk {step : Verifier → Text → Outcome Diagnostic Verifier}
    (hstep : ∀ w raw, (step w raw).state.rules = w.rules) (v : Verifier) (lines : List Text)
    (n : Nat) : ((each step v lines).andThen (checkClosed n)).state.rules = v.rules := by
  refine state_andThen (P := fun w : Verifier => w.rules = v.rules) ?_ fun w hw => ?_
  · exact state_each (P := fun w : Verifier => w.rules = v.rules)
      (fun w raw hw => (hstep w raw).trans hw) rfl lines
  · rw [state_checkClosed]
    exact hw

/-- A verifier between two programs: nothing is open, and nothing but what is known globally
is remembered. -/
structure Idle (v : Verifier) : Prop where
  rules : v.rules = Rule.standard
  atTop : v.env.AtTop
  nesting : v.nesting = 0
  afterReturn : v.afterReturn = false

theorem idle_start : Idle start := ⟨rfl, Env.atTop_empty, rfl, rfl⟩

theorem Idle.progress_eq {v : Verifier} (h : v.Idle) : v.progress = ⟨v.env, 0, false⟩ := by
  rw [progress, h.nesting, h.afterReturn]

/-- A run that succeeds leaves an idle verifier that knows what the survey found. -/
theorem Idle.run {v : Verifier} (h : v.Idle) {lines : List Text}
    (hrun : (v.run lines).failure = none) :
    (v.run lines).state.Idle ∧
      (each Progress.survey ⟨v.env, 0, false⟩ (significant lines)).result? =
        some ⟨(v.run lines).state.env, 0, false⟩ ∧
      (each Progress.inspect ⟨(v.run lines).state.env, 0, false⟩ (significant lines)).result? =
        some ⟨(v.run lines).state.env, 0, false⟩ := by
  obtain ⟨hs, hi⟩ := failure_andThen_eq_none.mp hrun
  have hstate : (v.run lines).state = ((v.survey lines).state.inspect lines).state := by
    rw [Verifier.run, andThen, hs]
  obtain ⟨hsurvey, hn⟩ := result?_survey_of_failure hs
  have hrules : (v.survey lines).state.rules = Rule.standard :=
    (rules_walk rules_surveyLine { v with line := 0 } lines _).trans h.rules
  obtain ⟨hinspect, hl⟩ := result?_inspect_of_failure hrules hi
  rw [h.progress_eq] at hsurvey
  have htop : (v.survey lines).state.env.AtTop := by
    have hall := Progress.atTop_each_survey (p := ⟨v.env, 0, false⟩) h.atTop (significant lines)
    rw [(result?_eq_some_iff.mp hsurvey).2] at hall
    exact hall
  have hflag : (v.survey lines).state.afterReturn = false := by
    have hall := state_each (P := fun p : Progress => p.afterReturn = false)
      (s := ⟨v.env, 0, false⟩)
      (fun p line hp => (Progress.afterReturn_survey p line).trans hp) rfl (significant lines)
    rw [(result?_eq_some_iff.mp hsurvey).2] at hall
    exact hall
  rw [hn] at hinspect
  -- The inspection ends outside every block, and there it is back at what the survey left.
  have hend := Progress.eq_of_each_inspect htop hinspect hl
  have henv : (v.run lines).state.env = (v.survey lines).state.env := by
    rw [hstate]
    exact congrArg Progress.env hend
  rw [henv]
  refine ⟨⟨?_, ?_, ?_, ?_⟩, ?_, ?_⟩
  · rw [hstate]
    exact (rules_walk rules_inspectLine _ lines _).trans hrules
  · rw [henv]
    exact htop
  · rw [hstate]
    exact congrArg Progress.nesting hend
  · rw [hstate]
    exact congrArg Progress.afterReturn hend
  · rw [hsurvey, progress, hn, hflag]
  · rw [hinspect, hend]

end Verifier

/-- Lines that one verifier accepts in two runs are accepted as one program. -/
theorem verify_append_of_runs {first second : List Text}
    (hfirst : (Verifier.start.run first).failure = none)
    (hsecond : ((Verifier.start.run first).state.run second).failure = none) :
    verify (first ++ second) = none := by
  obtain ⟨hidle, hs₁, hi₁⟩ := Verifier.idle_start.run hfirst
  obtain ⟨_, hs₂, hi₂⟩ := hidle.run hsecond
  have htop := hidle.atTop
  generalize (Verifier.start.run first).state.env = e₁ at hs₁ hi₁ hs₂ htop
  generalize ((Verifier.start.run first).state.run second).state.env = e₂ at hs₂ hi₂
  have hbelow : Env.Below e₁ e₂ := Progress.below_each_survey htop rfl hs₂
  -- The first lines once more, with all that the whole program knows.
  have hagain : (each Progress.inspect ⟨e₂, 0, false⟩ (significant first)).result? =
      some ⟨e₂, 0, false⟩ := by
    obtain ⟨t, ht, hbt⟩ := (Progress.Below.of_env hbelow).each_inspect (significant first) _ hi₁
    rw [ht, Progress.eq_of_each_inspect (hbelow.atTop htop.locals) ht
      (hbt.env.atTop htop.locals).locals]
  rw [verify_eq_none_iff, significant_append]
  refine ⟨⟨e₂, 0, false⟩, ?_, rfl, ?_⟩
  · rw [result?_each_append]
    exact (congrArg (Option.bind · _) hs₁).trans hs₂
  · rw [result?_each_append, hagain, Option.bind_some, hi₂]
    rfl

/-- A method that gives a global variable its value. -/
def samplePart : List Text :=
  ["int g;".toList, "void f() \x7b".toList, "  g = 1;".toList, "  return;".toList, "\x7d".toList]

/-- Lines that go on from there: they give the variable a value for all methods, declare
another one, and call the method. -/
def samplePartAfter : List Text :=
  ["int h = 2, i;".toList, "g = h;".toList, "void k(int i) \x7b".toList, "  f();".toList,
    "  while (g) \x7b".toList, "    int f = g;".toList, "  \x7d".toList, "  return;".toList,
    "\x7d".toList]

theorem verify_samplePart_append :
    (Verifier.start.run samplePart).failure = none ∧
      ((Verifier.start.run samplePart).state.run samplePartAfter).failure = none ∧
      verify (samplePart ++ samplePartAfter) = none :=
  have hfirst : (Verifier.start.run samplePart).failure = none := by decide +kernel
  have hsecond : ((Verifier.start.run samplePart).state.run samplePartAfter).failure = none := by
    decide +kernel
  ⟨hfirst, hsecond, verify_append_of_runs hfirst hsecond⟩

end SJava
