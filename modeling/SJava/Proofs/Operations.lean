/-
The environments of a run come from operations.

The rules call operations on an environment and change it in no other way.  What every
operation keeps, whether it succeeds or fails, is therefore kept by every line of both walks
(`Verifier.kept_inspectionTo`).  In particular the frames are layered throughout a run.
-/
import SJava.Proofs.Arena
import SJava.Proofs.GlobalKnowledge

namespace SJava

section Kept

variable {P : Env → Prop} (hstep : ∀ (e : Env) (op : Env.Operation), P e → P (op.apply e).state)
include hstep

namespace Env

theorem kept_declareLine {e : Env} (he : P e) (pass : Pass) (line : Text) :
    P (e.declareLine pass line).state :=
  state_declareLine he fun _ t ht x ty isFinal i => hstep t (.declare x ty isFinal i) ht

theorem kept_assignLine {e : Env} (he : P e) (line : Text) : P (e.assignLine line).state :=
  state_assignLine he fun t ht x => hstep t (.assign x) ht

theorem kept_headerLine {e : Env} (he : P e) (pass : Pass) (line : Text) :
    P (e.headerLine pass line).state := by
  unfold headerLine
  split
  · exact he
  next hd _ =>
  split
  · exact he
  cases pass with
  | inspection => exact hstep e (.enterMethod hd.name) he
  | survey =>
      simp only
      split
      · exact he
      · next s _ => exact hstep e (.addMethod s) he

theorem kept_openBlock {e : Env} (he : P e) (line : Text) : P (e.openBlock line).state := by
  unfold openBlock
  split
  · exact he
  split
  · exact he
  · exact state_require he (hstep e .push he)

theorem kept_closeBlock {e : Env} (he : P e) (afterReturn : Bool) :
    P (e.closeBlock afterReturn).state := by
  unfold closeBlock
  split
  · exact he
  · exact hstep e .pop he

theorem kept_surveyLine {e : Env} (he : P e) (line : Text) : P (e.surveyLine line).state := by
  unfold surveyLine
  split
  · exact kept_headerLine hstep he .survey line
  · exact kept_declareLine hstep he .survey line
  · exact kept_assignLine hstep he line
  · exact he

theorem kept_inspectLine {e : Env} (he : P e) (afterReturn : Bool) (line : Text) :
    P (e.inspectLine afterReturn line).state := by
  unfold inspectLine
  split
  · exact he
  next rule _ =>
  cases rule with
  | refuseComment => exact he
  | declare => exact kept_declareLine hstep he .inspection line
  | enterMethod => exact kept_headerLine hstep he .inspection line
  | openBlock => exact kept_openBlock hstep he line
  | closeBlock => exact kept_closeBlock hstep he afterReturn
  | call => exact state_require he he
  | assign =>
      rw [Rule.apply]
      split
      · exact he
      · exact kept_assignLine hstep he line
  | leave => exact state_require he he

end Env

namespace Progress

theorem kept_survey {p : Progress} (hp : P p.env) (line : Text) : P (p.survey line).state.env := by
  refine Outcome.state_andThen (P := fun q : Progress => P q.env) ?_ fun _ hq => hq
  split
  · exact Env.kept_surveyLine hstep hp line
  · exact hp

theorem kept_inspect {p : Progress} (hp : P p.env) (line : Text) : P (p.inspect line).state.env :=
  Outcome.state_andThen (P := fun q : Progress => P q.env)
    (Env.kept_inspectLine hstep hp p.afterReturn line) fun _ hq => hq

end Progress

namespace Verifier

theorem kept_surveyTo (hempty : P Env.empty) (lines : List Text) (k : Nat) :
    P (surveyTo lines k).state.env := by
  have hrun : P (Outcome.each Progress.survey .start (significant (lines.take k))).state.env :=
    Outcome.state_each (P := fun p : Progress => P p.env)
      (fun _ line hp => Progress.kept_survey hstep hp line) hempty _
  rw [← view_surveyTo] at hrun
  exact hrun

theorem kept_inspectionTo (hempty : P Env.empty) (lines : List Text) (k : Nat) :
    P (inspectionTo lines k).state.env := by
  have hstart : P (surveyed lines).env := by
    rw [surveyed_eq]
    exact kept_surveyTo hstep hempty lines lines.length
  have hrun : P (Outcome.each Progress.inspect
      ⟨(surveyed lines).env, (surveyed lines).nesting, false⟩
      (significant (lines.take k))).state.env :=
    Outcome.state_each (P := fun p : Progress => P p.env)
      (fun _ line hp => Progress.kept_inspect hstep hp line) hstart _
  rw [← view_inspectionTo] at hrun
  exact hrun

end Verifier

end Kept

theorem Verifier.layered_inspectionTo (lines : List Text) (k : Nat) :
    (inspectionTo lines k).state.env.Layered :=
  kept_inspectionTo (fun _ op h => h.apply op) Env.Layered.empty lines k

end SJava
