/-
Where a fault is found.

A run stops at the first line whose handling fails, and the diagnostic carries the number
of that line.  The lines before it have been handled without a fault, and it is neither
blank nor a comment, so its fault is that of the bare walk on the trimmed line
(`Walk.exists_of_failure`).  The only fault without a line of its own is the one found past
the last line when a block is still open, and only the survey finds it
(`finding_of_verify`).
-/
import SJava.Proofs.Levels

namespace SJava

open Text

namespace Outcome

variable {ε σ α : Type}

/-- A run that fails does so at an item, after a part of the run that succeeded. -/
theorem exists_of_failure_each {step : σ → α → Outcome ε σ} {s : σ} {as : List α} {e : ε}
    (h : (each step s as).failure = some e) :
    ∃ k a, as[k]? = some a ∧ (each step s (as.take k)).failure = none ∧
      (step (each step s (as.take k)).state a).failure = some e := by
  obtain ⟨before, a, after, t, rfl, hbefore, hstep⟩ := exists_append_of_failure_each h
  have htake : (before ++ a :: after).take before.length = before := List.take_left
  refine ⟨before.length, a, by simp, ?_, ?_⟩
  · rw [htake, hbefore]
    rfl
  · rw [htake, hbefore, ← h, hstep]
    rfl

end Outcome

/-- The survey fails on a line only outside every block. -/
theorem Progress.failure_survey {p : Progress} {line : Text} {fault : Fault}
    (h : (p.survey line).failure = some fault) :
    p.nesting = 0 ∧ (p.env.surveyLine line).failure = some fault := by
  rw [survey] at h
  split at h
  · next hn =>
    refine ⟨hn, ?_⟩
    cases hf : (p.env.surveyLine line).failure with
    | none => simp [Outcome.andThen, Outcome.map, hf, Outcome.ok] at h
    | some f => simpa [Outcome.andThen, Outcome.map, hf] using h
  · simp [Outcome.andThen, Outcome.map, Outcome.ok] at h

namespace Verifier

/-! ## Numbers of lines -/

/-- The operation leaves the verifier at line `n`, and its fault is one of that line. -/
structure DatedAt (n : Nat) (o : Outcome Diagnostic Verifier) : Prop where
  state : o.state.line = n
  failure : ∀ d, o.failure = some d → d.line = n

namespace DatedAt

theorem ok {n : Nat} {v : Verifier} (h : v.line = n) : DatedAt n (.ok v) :=
  ⟨h, fun _ hd => nomatch hd⟩

theorem settle {n : Nat} {v : Verifier} (h : v.line = n) (o : Outcome Fault Env) :
    DatedAt n (v.settle o) := by
  refine ⟨h, fun d hd => ?_⟩
  obtain ⟨fault, _, rfl⟩ := Option.map_eq_some_iff.mp hd
  exact h

theorem andThen {n : Nat} {o : Outcome Diagnostic Verifier}
    {next : Verifier → Outcome Diagnostic Verifier} (ho : DatedAt n o)
    (hnext : ∀ w, w.line = n → DatedAt n (next w)) : DatedAt n (o.andThen next) := by
  unfold Outcome.andThen
  split
  · exact hnext _ ho.state
  · exact ho

end DatedAt

theorem datedAt_surveyLine (v : Verifier) (raw : Text) :
    DatedAt (v.line + 1) (v.surveyLine raw) := by
  simp only [surveyLine]
  split
  · exact .ok rfl
  · refine DatedAt.andThen ?_ fun w hw => DatedAt.andThen ?_ fun w' hw' => ?_
    · rw [surveyHeader]
      split
      · apply DatedAt.settle
        rfl
      · exact .ok rfl
    · rw [surveyDeclaration]
      split
      · apply DatedAt.settle
        exact hw
      · exact .ok hw
    · rw [surveyAssignment]
      split
      · exact .settle hw' _
      · exact .ok hw'

theorem datedAt_inspectLine (v : Verifier) (raw : Text) :
    DatedAt (v.line + 1) (v.inspectLine raw) := by
  simp only [inspectLine]
  split
  · exact .ok rfl
  · split
    · exact ⟨rfl, fun d hd => by rw [← Option.some.inj hd]⟩
    · refine DatedAt.andThen ?_ fun w hw => .ok hw
      apply DatedAt.settle
      rfl

/-! ## Walks -/

/-- What the two walks have in common.  A walk takes the lines one by one and counts them,
passes over those that say nothing, and handles the others as the bare walk does. -/
structure Walk (step : Verifier → Text → Outcome Diagnostic Verifier)
    (bare : Progress → Text → Outcome Fault Progress) : Prop where
  rules : ∀ v raw, (step v raw).state.rules = v.rules
  dated : ∀ v raw, DatedAt (v.line + 1) (step v raw)
  view : ∀ v raw, v.rules = Rule.standard → (step v raw).view progress Diagnostic.fault =
    if isSkippable raw then .ok v.progress else bare v.progress (trim raw)

theorem walk_survey : Walk surveyLine Progress.survey :=
  ⟨rules_surveyLine, datedAt_surveyLine, fun v raw _ => view_surveyLine v raw⟩

theorem walk_inspect : Walk inspectLine Progress.inspect :=
  ⟨rules_inspectLine, datedAt_inspectLine, fun _ raw hv => view_inspectLine hv raw⟩

namespace Walk

variable {step : Verifier → Text → Outcome Diagnostic Verifier}
  {bare : Progress → Text → Outcome Fault Progress} {v : Verifier}

theorem rules_each (hw : Walk step bare) (hv : v.rules = Rule.standard) (lines : List Text) :
    (Outcome.each step v lines).state.rules = Rule.standard :=
  Outcome.state_each (P := fun w : Verifier => w.rules = Rule.standard)
    (fun w raw h => (hw.rules w raw).trans h) hv lines

/-- The number of the line counts the lines. -/
theorem line_each (hw : Walk step bare) {lines : List Text}
    (h : (Outcome.each step v lines).failure = none) :
    (Outcome.each step v lines).state.line = v.line + lines.length := by
  induction lines generalizing v with
  | nil => rfl
  | cons raw lines ih =>
      rw [Outcome.each] at h ⊢
      obtain ⟨hstep, hrest⟩ := Outcome.failure_andThen_eq_none.mp h
      rw [Outcome.andThen, hstep]
      show (Outcome.each step (step v raw).state lines).state.line = _
      rw [ih hrest, (hw.dated v raw).state, List.length_cons]
      omega

/-- A walk fails at a line that says something, and for the reason that the bare walk has
there. -/
theorem exists_of_failure (hw : Walk step bare) (hv : v.rules = Rule.standard)
    (hl : v.line = 0) {lines : List Text} {d : Diagnostic}
    (h : (Outcome.each step v lines).failure = some d) :
    ∃ k raw, lines[k]? = some raw ∧ isSkippable raw = false ∧ d.line = k + 1 ∧
      (Outcome.each step v (lines.take k)).failure = none ∧
      (bare (Outcome.each step v (lines.take k)).state.progress (trim raw)).failure =
        some d.fault := by
  obtain ⟨k, raw, hk, hpre, hstep⟩ := Outcome.exists_of_failure_each h
  have hklt : k < lines.length := (List.getElem?_eq_some_iff.mp hk).1
  have hline := hw.line_each hpre
  rw [hl, List.length_take, Nat.min_eq_left (Nat.le_of_lt hklt)] at hline
  have hview := congrArg Outcome.failure (hw.view _ raw (hw.rules_each hv (lines.take k)))
  rw [Outcome.failure_view, hstep, Option.map_some] at hview
  cases hs : isSkippable raw with
  | true =>
      rw [hs] at hview
      simp [Outcome.ok] at hview
  | false =>
      rw [hs] at hview
      have hnum := (hw.dated _ raw).failure d hstep
      exact ⟨k, raw, hk, hs, by omega, hpre, hview.symm⟩

end Walk

/-! ## Findings -/

/-- How a fault of a program is found. -/
inductive Finding (lines : List Text) : Diagnostic → Prop where
  /-- The survey meets it on a line. -/
  | survey {d : Diagnostic} {k : Nat} {raw : Text} (hk : lines[k]? = some raw)
      (hs : isSkippable raw = false) (hd : d.line = k + 1)
      (hpre : (surveyTo lines k).failure = none)
      (hstep : ((surveyTo lines k).state.progress.survey (trim raw)).failure = some d.fault) :
      Finding lines d
  /-- The survey ends inside a block. -/
  | unclosed (hall : (surveyTo lines lines.length).failure = none)
      (hn : (surveyed lines).nesting ≠ 0) : Finding lines ⟨.unclosedScope, lines.length + 1⟩
  /-- The survey succeeds, and the inspection meets it on a line. -/
  | inspection {d : Diagnostic} {k : Nat} {raw : Text}
      (hok : (start.survey lines).failure = none) (hk : lines[k]? = some raw)
      (hs : isSkippable raw = false) (hd : d.line = k + 1)
      (hpre : (inspectionTo lines k).failure = none)
      (hstep : ((inspectionTo lines k).state.progress.inspect (trim raw)).failure = some d.fault) :
      Finding lines d

theorem finding_of_survey {lines : List Text} {d : Diagnostic}
    (h : (start.survey lines).failure = some d) : Finding lines d := by
  cases hall : (Outcome.each surveyLine start lines).failure with
  | some d' =>
      rw [survey, Outcome.andThen, show { start with line := 0 } = start from rfl, hall] at h
      obtain rfl : d' = d := Option.some.inj (hall.symm.trans h)
      obtain ⟨k, raw, hk, hs, hline, hpre, hstep⟩ := walk_survey.exists_of_failure rfl rfl hall
      exact .survey hk hs hline hpre hstep
  | none =>
      have hto : (surveyTo lines lines.length).failure = none := by
        rw [surveyTo, List.take_length]
        exact hall
      have hclosed : (checkClosed lines.length (surveyed lines)).failure = some d := by
        rw [surveyed_eq, surveyTo, List.take_length]
        rw [survey, Outcome.andThen, show { start with line := 0 } = start from rfl, hall] at h
        exact h
      rw [checkClosed] at hclosed
      split at hclosed
      · next hopen =>
        obtain rfl := Option.some.inj hclosed
        have hg := Env.isGlobal_eq_true (atTop_surveyed lines).locals
        exact .unclosed hto (by simpa [hg] using hopen)
      · simp [Outcome.ok] at hclosed

theorem finding_of_inspection {lines : List Text} {d : Diagnostic}
    (hok : (start.survey lines).failure = none)
    (h : (inspectionTo lines lines.length).failure = some d) : Finding lines d := by
  rw [inspectionTo, List.take_length] at h
  obtain ⟨k, raw, hk, hs, hline, hpre, hstep⟩ :=
    walk_inspect.exists_of_failure (v := { surveyed lines with line := 0, afterReturn := false })
      (rules_surveyed lines) rfl h
  exact .inspection hok hk hs hline hpre hstep

end Verifier

open Verifier in
/-- Every diagnostic has been found on a line by one of the walks, or past the last line by
the survey. -/
theorem finding_of_verify {lines : List Text} {d : Diagnostic} (h : verify lines = some d) :
    Finding lines d := by
  cases hs : (start.survey lines).failure with
  | some d' =>
      rw [verify, run, Outcome.andThen, hs] at h
      obtain rfl : d' = d := Option.some.inj (hs.symm.trans h)
      exact finding_of_survey hs
  | none =>
      rw [verify, run_eq hs] at h
      cases hi : (inspectionTo lines lines.length).failure with
      | some d' =>
          rw [Outcome.andThen, hi] at h
          obtain rfl : d' = d := Option.some.inj (hi.symm.trans h)
          exact finding_of_inspection hs hi
      | none =>
          rw [Outcome.andThen, hi] at h
          have hend : (checkClosed lines.length (inspectionTo lines lines.length).state).failure =
              some d := h
          rw [checkClosed_inspectionTo hs hi] at hend
          exact absurd hend (by simp)

end SJava
