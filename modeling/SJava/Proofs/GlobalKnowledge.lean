/-
The inspection never touches what is known globally.

At every point of the inspection, in the middle of a line and where a fault ends it as well,
the methods and the global frame are those that the survey left, and outside every block the
whole environment is.  So nothing that one method does reaches another: each body starts from
the environment of the survey and the parameters of its method, and a global variable that
the survey left without a value has none there, whatever earlier bodies assigned to it.
-/
import SJava.Proofs.Progress

namespace SJava

open Text

theorem Env.sameGlobals_inspectLine {e : Env} (hg : e.globals.AllGlobal) (afterReturn : Bool)
    (line : Text) : e.SameGlobals (e.inspectLine afterReturn line).state := by
  unfold Env.inspectLine
  split
  · exact .refl e
  · next rule _ => exact rule.sameGlobals_apply afterReturn hg line

theorem Progress.sameGlobals_inspect {p : Progress} (hg : p.env.globals.AllGlobal)
    (line : Text) : p.env.SameGlobals (p.inspect line).state.env :=
  Outcome.state_andThen (P := fun q : Progress => p.env.SameGlobals q.env)
    (Env.sameGlobals_inspectLine hg p.afterReturn line) fun _ hq => hq

theorem Progress.sameGlobals_each_inspect {p : Progress} (hg : p.env.globals.AllGlobal)
    (lines : List Text) :
    p.env.SameGlobals (Outcome.each Progress.inspect p lines).state.env := by
  refine Outcome.state_each (P := fun q : Progress => p.env.SameGlobals q.env)
    (fun q line hq => ?_) (.refl p.env) lines
  have hq' : q.env.globals.AllGlobal := by rw [hq.globals]; exact hg
  exact hq.trans (Progress.sameGlobals_inspect hq' line)

/-- In the middle of a line inside a block, the line has left everything global alone. -/
theorem Env.Midway.sameGlobals {line : Text} {e e' : Env} (hmid : Midway line e e')
    (hg : e.globals.AllGlobal) (hd : 1 < e'.depth) : e.SameGlobals e' := by
  have hcase : e'.AtTop ∨ e'.locals ≠ [] ∧ e.SameGlobals e' := by
    refine hmid.state (P := fun t => t.AtTop ∨ t.locals ≠ [] ∧ e.SameGlobals t)
      (fun t x ty isFinal i ht => ?_) (fun t x ht => ?_) ?_
      (Or.inr ⟨List.cons_ne_nil _ _, rfl, rfl⟩)
    · rcases ht with htop | ⟨hl, hsame⟩
      · exact Or.inl (htop.declare x ty isFinal i)
      · have hblocks := sameBlocks_declare hl x ty isFinal i
        exact Or.inr ⟨hblocks.ne_nil hl, hsame.trans hblocks.toSameGlobals⟩
    · rcases ht with htop | ⟨hl, hsame⟩
      · exact Or.inl (htop.assign x)
      · have hglobal : t.globals.AllGlobal := by rw [hsame.globals]; exact hg
        have hblocks := sameBlocks_assign hl hglobal x
        exact Or.inr ⟨hblocks.ne_nil hl, hsame.trans hblocks.toSameGlobals⟩
    · by_cases hl : e.locals = []
      · exact Or.inl ⟨hl, hg⟩
      · exact Or.inr ⟨hl, .refl e⟩
  rcases hcase with htop | ⟨_, hsame⟩
  · simp [depth, htop.locals] at hd
  · exact hsame

/-- A method's body starts with its parameters, which hide the global variables of the same
names and no others. -/
theorem Env.find?_ofParameters {e : Env} (he : e.locals = []) {ps : List Parameter} {x : Text}
    (hx : ∀ p ∈ ps, p.name ≠ x) :
    ({ e with locals := [Frame.ofParameters ps] } : Env).find? x = e.find? x := by
  have hnone : (Frame.ofParameters ps).find? x = none := by
    rw [Frame.find?, List.find?_eq_none]
    intro b hb
    rw [Frame.ofParameters, List.mem_reverse] at hb
    obtain ⟨p, hp, rfl⟩ := List.mem_map.mp hb
    simp [Parameter.binding, hx p hp]
  simp [Env.find?, Env.frames, he, hnone]

namespace Verifier

theorem atTop_surveyTo (lines : List Text) (k : Nat) : (surveyTo lines k).state.env.AtTop := by
  have hrun := Progress.atTop_each_survey (p := Progress.start) Env.atTop_empty
    (significant (lines.take k))
  rw [← view_surveyTo] at hrun
  exact hrun

theorem atTop_surveyed (lines : List Text) : (surveyed lines).env.AtTop := by
  rw [surveyed_eq]
  exact atTop_surveyTo lines lines.length

theorem sameGlobals_inspectionTo (lines : List Text) (k : Nat) :
    (surveyed lines).env.SameGlobals (inspectionTo lines k).state.env := by
  have h := Progress.sameGlobals_each_inspect
    (p := ⟨(surveyed lines).env, (surveyed lines).nesting, false⟩)
    (atTop_surveyed lines).allGlobal (significant (lines.take k))
  rw [← view_inspectionTo] at h
  exact h

/-- Outside every block the inspection is back at the environment of the survey. -/
theorem env_inspectionTo_eq {lines : List Text} {k : Nat}
    (h : (inspectionTo lines k).state.env.locals = []) :
    (inspectionTo lines k).state.env = (surveyed lines).env :=
  (sameGlobals_inspectionTo lines k).eq_of_locals (h.trans (atTop_surveyed lines).locals.symm)

theorem headerLine_of_succ {lines : List Text} {k : Nat} {raw : Text} (hk : lines[k]? = some raw)
    (hs : isSkippable raw = false) (hc : Category.of (trim raw) = .methodDeclaration)
    (h : (inspectionTo lines (k + 1)).failure = none) :
    ∃ hd s, Header.parse? (trim raw) = some hd ∧ (inspectionTo lines k).state.env.locals = [] ∧
      (inspectionTo lines k).state.env.signature? hd.name = some s ∧
      (s.parameters.map (·.name)).Nodup ∧
      (inspectionTo lines (k + 1)).state.env =
        { (inspectionTo lines k).state.env with locals := [Frame.ofParameters s.parameters] } := by
  have hres := result?_inspect_succ hk hs h
  rw [Progress.result?_inspect, Env.inspectLine, hc] at hres
  obtain ⟨e, he, heq⟩ := Option.map_eq_some_iff.mp hres
  rw [← show e = (inspectionTo lines (k + 1)).state.env from congrArg Progress.env heq]
  exact Env.result?_headerLine_eq_some he

/-- At every point of the inspection the methods and the global frame are those of the
survey, in the middle of a line as well: outside every block the inspection passes over
declarations and assignments, so those points lie inside one.  Outside every block nothing else
is known either.  The body of a method is entered with that and its parameters in view, so a
global variable without a value has none there unless a parameter hides it. -/
theorem inspection_keeps_global_knowledge (lines : List Text) (k : Nat) :
    (inspectionTo lines k).state.env.methods = (surveyed lines).env.methods ∧
    (inspectionTo lines k).state.env.globals = (surveyed lines).env.globals ∧
    ((inspectionTo lines k).state.env.depth = 1 →
      (inspectionTo lines k).state.env = (surveyed lines).env) ∧
    (∀ raw e, lines[k]? = some raw → Env.Midway (trim raw) (inspectionTo lines k).state.env e →
      1 < e.depth →
      e.methods = (surveyed lines).env.methods ∧ e.globals = (surveyed lines).env.globals) ∧
    ∀ raw, lines[k]? = some raw → isSkippable raw = false →
      Category.of (trim raw) = .methodDeclaration →
      (inspectionTo lines (k + 1)).failure = none →
      ∃ s ∈ (surveyed lines).env.methods,
        (inspectionTo lines (k + 1)).state.env =
          { (surveyed lines).env with locals := [Frame.ofParameters s.parameters] } ∧
        ∀ x b, (surveyed lines).env.globals.find? x = some b → b.isInitialized = false →
          (∀ p ∈ s.parameters, p.name ≠ x) →
          (inspectionTo lines (k + 1)).state.env.find? x = some b := by
  have hsame := sameGlobals_inspectionTo lines k
  refine ⟨hsame.methods, hsame.globals, fun hd => ?_, fun raw e _ hmid hd => ?_,
    fun raw hk hs hc hok => ?_⟩
  · refine env_inspectionTo_eq (List.length_eq_zero_iff.mp ?_)
    rw [Env.depth] at hd
    omega
  · have hg : (inspectionTo lines k).state.env.globals.AllGlobal := by
      rw [hsame.globals]
      exact (atTop_surveyed lines).allGlobal
    have hmidway := hsame.trans (hmid.sameGlobals hg hd)
    exact ⟨hmidway.methods, hmidway.globals⟩
  · obtain ⟨hd, s, _, hl, hsig, _, henv⟩ := headerLine_of_succ hk hs hc hok
    rw [env_inspectionTo_eq hl] at henv hsig
    refine ⟨s, List.mem_of_find?_eq_some hsig, henv, fun x b hx _ hp => ?_⟩
    rw [henv, Env.find?_ofParameters (atTop_surveyed lines).locals hp]
    simpa [Env.find?, Env.frames, (atTop_surveyed lines).locals] using hx

end Verifier
end SJava
