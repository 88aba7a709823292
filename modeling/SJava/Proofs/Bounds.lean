/-
A run stays in range.

The verifier counts open blocks with a sign and lines without one, looks for names by positions in
the list of frames, and takes parts of lines by the numbers of their bytes.  A line moves each
counter by one at most (`Outcome.each_le`), the positions are those of layered frames
(`Env.Layered.indicesInRange`), and the slices are those of `Text.slicesFit`.  So on any texts that
are fewer than `2 ^ 31 - 1`, no counter leaves its 32 bits and no position or byte is out of range,
at any point of a run and in the middle of any line.
-/
import SJava.Proofs.Findings
import SJava.Proofs.Operations
import SJava.Proofs.Recording
import SJava.Proofs.Slices
import SJava.Proofs.SymbolTables

namespace SJava

open Text

/-- What a step raises by one at most, a run raises by its number of steps at most. -/
theorem Outcome.each_le {ε σ α : Type} {step : σ → α → Outcome ε σ} {f : σ → Int}
    (hstep : ∀ s a, f (step s a).state ≤ f s + 1) (s : σ) (as : List α) :
    f (each step s as).state ≤ f s + as.length := by
  induction as generalizing s with
  | nil => simp [each, ok]
  | cons a as ih =>
      have hfirst := hstep s a
      have hrest := ih (step s a).state
      rw [each, andThen]
      split
      · show f (each step (step s a).state as).state ≤ _
        rw [List.length_cons]
        omega
      · rw [List.length_cons]
        omega

/-! ## Counters -/

namespace Verifier

/-- The counts of open blocks that the survey goes through on a line: after the header that the line
may be, after the condition, and after the end of a block. -/
def nestingSteps (n : Int) (line : Text) : List Int :=
  let afterHeader := n + if Category.methodDeclaration.admits line then 1 else 0
  let afterCondition :=
    afterHeader + if Category.conditionalBlockStart.admits line then 1 else 0
  [afterHeader, afterCondition, afterCondition - if Category.blockEnd.admits line then 1 else 0]

theorem getLast?_nestingSteps (n : Int) (line : Text) :
    (nestingSteps n line).getLast? = some (n + nestingChange line) := by
  rw [nestingSteps, nestingChange]
  simp only [List.getLast?_cons_cons, List.getLast?_singleton, Option.some.injEq]
  omega

/-- A line is one of the three at most, so each count is within one of the count before the line. -/
theorem of_mem_nestingSteps {n m : Int} {line : Text} (h : m ∈ nestingSteps n line) :
    n - 1 ≤ m ∧ m ≤ n + 1 := by
  have hm := Category.admits_iff_of_eq (c := .methodDeclaration) (by simp) line
  have hb := Category.admits_iff_of_eq (c := .conditionalBlockStart) (by simp) line
  have he := Category.admits_iff_of_eq (c := .blockEnd) (by simp) line
  simp only [nestingSteps, hm, hb, he, List.mem_cons, List.not_mem_nil, or_false] at h
  generalize Category.of line = c at h
  cases c <;> simp at h <;> omega

end Verifier

/-- The survey of a line moves the count of open blocks by one at most. -/
theorem Progress.nesting_survey (p : Progress) (line : Text) :
    p.nesting - 1 ≤ (p.survey line).state.nesting ∧
      (p.survey line).state.nesting ≤ p.nesting + 1 := by
  have hchange : -1 ≤ (Category.of line).change ∧ (Category.of line).change ≤ 1 := by
    cases Category.of line <;> decide
  rw [survey, Outcome.andThen]
  split
  · show p.nesting - 1 ≤ p.nesting + (Category.of line).change ∧
      p.nesting + (Category.of line).change ≤ p.nesting + 1
    omega
  · show p.nesting - 1 ≤ p.nesting ∧ p.nesting ≤ p.nesting + 1
    omega

namespace Verifier

theorem nesting_surveyLine (v : Verifier) (raw : Text) :
    v.nesting - 1 ≤ (v.surveyLine raw).state.nesting ∧
      (v.surveyLine raw).state.nesting ≤ v.nesting + 1 := by
  have hview := congrArg (fun o => o.state.nesting) (view_surveyLine v raw)
  have hnesting : (v.surveyLine raw).state.nesting = _ := hview
  rw [hnesting]
  split
  · show v.nesting - 1 ≤ v.nesting ∧ v.nesting ≤ v.nesting + 1
    omega
  · exact v.progress.nesting_survey (trim raw)

theorem nesting_inspectLine (v : Verifier) (raw : Text) :
    (v.inspectLine raw).state.nesting = v.nesting := by
  simp only [inspectLine]
  split
  · rfl
  split
  · rfl
  · exact Outcome.state_andThen (P := fun w : Verifier => w.nesting = v.nesting) rfl
      fun _ hw => hw

/-- The integer is no further from zero than `n`. -/
def Within (n : Nat) (i : Int) : Prop := -(n : Int) ≤ i ∧ i ≤ n

theorem Within.mono {m n : Nat} {i : Int} (h : Within m i) (hmn : m ≤ n) : Within n i := by
  obtain ⟨hlower, hupper⟩ := h
  constructor <;> omega

theorem within_surveyTo (lines : List Text) (k : Nat) :
    Within (lines.take k).length (surveyTo lines k).state.nesting := by
  have hupper : (surveyTo lines k).state.nesting ≤ 0 + ((lines.take k).length : Int) :=
    Outcome.each_le (f := fun v : Verifier => v.nesting)
      (fun v raw => (nesting_surveyLine v raw).2) start (lines.take k)
  have hlower : -(surveyTo lines k).state.nesting ≤ -0 + ((lines.take k).length : Int) := by
    refine Outcome.each_le (f := fun v : Verifier => -v.nesting) (fun v raw => ?_) start
      (lines.take k)
    have hstep := (nesting_surveyLine v raw).1
    show -(v.surveyLine raw).state.nesting ≤ -v.nesting + 1
    omega
  constructor <;> omega

theorem nesting_inspectionTo_eq (lines : List Text) (k : Nat) :
    (inspectionTo lines k).state.nesting = (surveyTo lines lines.length).state.nesting := by
  rw [← surveyed_eq]
  exact Outcome.state_each (P := fun v : Verifier => v.nesting = (surveyed lines).nesting)
    (s := { surveyed lines with line := 0, afterReturn := false })
    (fun v raw hv => (nesting_inspectLine v raw).trans hv) rfl _

/-- A walk that starts at line zero has counted no more lines than it was given. -/
theorem line_each_le {step : Verifier → Text → Outcome Diagnostic Verifier}
    (hdated : ∀ v raw, DatedAt (v.line + 1) (step v raw)) {v : Verifier} (hv : v.line = 0)
    (lines : List Text) : (Outcome.each step v lines).state.line ≤ lines.length := by
  have h : ((Outcome.each step v lines).state.line : Int) ≤ v.line + lines.length := by
    refine Outcome.each_le (f := fun v : Verifier => (v.line : Int)) (fun v raw => ?_) v lines
    have hline := (hdated v raw).state
    show ((step v raw).state.line : Int) ≤ v.line + 1
    omega
  omega

/-- The count of open blocks stays between the negated number of lines and that number, and the
numbers of the lines up to that number, at every point of a run.  A diagnostic is reported for one
of the lines, or for the line after the last. -/
structure CountersFit (lines : List Text) : Prop where
  survey : ∀ k, Within lines.length (surveyTo lines k).state.nesting ∧
    (surveyTo lines k).state.line ≤ lines.length
  midSurvey : ∀ k raw, lines[k]? = some raw →
    let before := (surveyTo lines k).state.nesting
    (nestingSteps before (trim raw)).getLast? = some (before + nestingChange (trim raw)) ∧
      ∀ m ∈ nestingSteps before (trim raw), Within lines.length m
  inspection : ∀ k, Within lines.length (inspectionTo lines k).state.nesting ∧
    (inspectionTo lines k).state.line ≤ lines.length
  finish : Within lines.length (start.run lines).state.nesting ∧
    (start.run lines).state.line ≤ lines.length
  reported : ∀ d, verify lines = some d → 1 ≤ d.line ∧ d.line ≤ lines.length + 1

theorem countersFit (lines : List Text) : CountersFit lines := by
  have hsurvey (k : Nat) : Within lines.length (surveyTo lines k).state.nesting ∧
      (surveyTo lines k).state.line ≤ lines.length :=
    ⟨(within_surveyTo lines k).mono (List.length_take_le' k lines),
      (line_each_le datedAt_surveyLine rfl _).trans (List.length_take_le' k lines)⟩
  have hinspection (k : Nat) : Within lines.length (inspectionTo lines k).state.nesting ∧
      (inspectionTo lines k).state.line ≤ lines.length := by
    refine ⟨?_, (line_each_le datedAt_inspectLine rfl _).trans (List.length_take_le' k lines)⟩
    rw [nesting_inspectionTo_eq]
    exact (hsurvey lines.length).1
  refine ⟨hsurvey, fun k raw hk => ⟨getLast?_nestingSteps _ _, fun m hm => ?_⟩, hinspection, ?_,
    fun d hd => ?_⟩
  · obtain ⟨hlt, _⟩ := List.getElem?_eq_some_iff.mp hk
    obtain ⟨hlower, hupper⟩ := within_surveyTo lines k
    have hlength : (lines.take k).length = k := by
      rw [List.length_take]
      omega
    have hstep := of_mem_nestingSteps hm
    constructor <;> omega
  · exact state_run (P := fun v : Verifier => Within lines.length v.nesting ∧ v.line ≤ lines.length)
      (hsurvey lines.length) (hinspection lines.length)
  · cases finding_of_verify hd with
    | survey hk _ hline _ _ | inspection _ hk _ hline _ _ =>
        obtain ⟨hlt, _⟩ := List.getElem?_eq_some_iff.mp hk
        omega
    | unclosed _ _ =>
        show 1 ≤ lines.length + 1 ∧ lines.length + 1 ≤ lines.length + 1
        omega

end Verifier

/-! ## Positions of frames -/

namespace Env

/-- Every position at which the frames are looked up is one of the list of frames. -/
structure IndicesInRange (e : Env) : Prop where
  /-- The last position has the innermost frame. -/
  current : e.arena[e.depth - 1]? = some (e.locals.headD e.globals)
  /-- Links lead to earlier positions. -/
  parent : ∀ (i : Nat) (f : Frame) (p : Nat), e.arena[i]? = some f → f.parent = some p → p < i
  /-- The walk for a name comes to its end at a position of the list, or past the first one. -/
  walk : ∀ x, ∃ r, Resolves e.arena x (some (e.depth - 1)) r ∧ r.map (·.2) = e.find? x ∧
    ∀ entry ∈ r, entry.1 < e.arena.length
  /-- The frame of the method's body is at position one, where it receives the copy of a global
  variable that is assigned inside a method. -/
  method : ∀ x b, e.find? x = some b → b.isInitialized = false → b.info.isGlobal = true →
    e.isGlobal = false → ∃ f, e.arena[1]? = some f ∧
      (e.assign x).state.arena = e.arena.set 1 (f.declare x b.info true).state

theorem getElem?_arena_current (e : Env) :
    e.arena[e.depth - 1]? = some (e.locals.headD e.globals) := by
  cases hl : e.locals <;> simp [arena, depth, hl]

/-- The walk for a name from the innermost frame comes to an end, where `find?` finds it. -/
theorem Layered.exists_resolves {e : Env} (h : e.Layered) (x : Text) :
    ∃ r, Resolves e.arena x (some (e.depth - 1)) r ∧ InnermostEntry e.arena x r ∧
      r.map (·.2) = e.find? x := by
  have hlength : e.arena.length = e.depth := by simp [arena, depth]
  have hpos : e.depth ≠ 0 := Nat.succ_ne_zero _
  obtain ⟨r, hr, hinner, hfind⟩ := Resolves.exists_of_linked (x := x)
    (fun i f hf => (h.coherent.frameAt i f hf).parent) (Nat.le_refl e.arena.length)
  rw [List.take_length] at hinner hfind
  rw [hlength, if_neg hpos] at hr
  refine ⟨r, hr, hinner, ?_⟩
  rw [hfind, arena_eq_reverse_frames, List.reverse_reverse]
  rfl

theorem Layered.indicesInRange {e : Env} (h : e.Layered) : e.IndicesInRange where
  current := getElem?_arena_current e
  parent i f p hf hp := by
    have hlink := (h.coherent.frameAt i f hf).parent
    rw [hp] at hlink
    split at hlink
    · exact absurd hlink (by simp)
    · have := Option.some.inj hlink
      omega
  walk x := by
    obtain ⟨r, hr, hinner, hfind⟩ := h.exists_resolves x
    refine ⟨r, hr, hfind, ?_⟩
    rintro ⟨i, b⟩ hentry
    obtain rfl : r = some (i, b) := hentry
    obtain ⟨⟨f, hf, _⟩, _⟩ := hinner
    exact (List.getElem?_eq_some_iff.mp hf).1
  method x b hb hi hg hlocal := by
    have hl : e.locals ≠ [] := fun hnil => by simp [isGlobal, depth, hnil] at hlocal
    obtain ⟨inner, f, hlocals, _, _, hassign⟩ := h.assign_copy hl hb hi hg
    refine ⟨f, ?_, ?_⟩
    · simp [arena_eq_reverse_frames, frames, hlocals]
    · rw [hassign]
      simp [arena_eq_reverse_frames, frames, hlocals]

/-- What every operation keeps holds in the middle of a line. -/
theorem kept_midway {P : Env → Prop}
    (hstep : ∀ (e : Env) (op : Operation), P e → P (op.apply e).state) {line : Text} {e e' : Env}
    (he : P e) (hmid : Midway line e e') : P e' :=
  hmid.state (fun t x ty isFinal i => hstep t (.declare x ty isFinal i))
    (fun t x => hstep t (.assign x)) he (hstep e .push he)

end Env

namespace Verifier

theorem throughout_of_kept {P : Env → Prop}
    (hstep : ∀ (e : Env) (op : Env.Operation), P e → P (op.apply e).state) (hempty : P Env.empty)
    (lines : List Text) : Throughout lines P where
  survey := kept_surveyTo hstep hempty lines
  inspection := kept_inspectionTo hstep hempty lines
  midSurvey k _ _ _ hmid := Env.kept_midway hstep (kept_surveyTo hstep hempty lines k) hmid
  midInspection k _ _ _ hmid := Env.kept_midway hstep (kept_inspectionTo hstep hempty lines k) hmid
  finish := state_run (P := fun v : Verifier => P v.env) (kept_surveyTo hstep hempty lines _)
    (kept_inspectionTo hstep hempty lines _)

/-! ## Runs -/

/-- A run over fewer than `2 ^ 31 - 1` texts stays in range.  The count of open blocks fits into 32
bits with a sign, and the numbers of lines, up to the one after the last, into 32 bits without one.
Every position of a frame that is looked up, also in the middle of a line, has a frame.  Every slice
that is taken of a line, whatever its text, exists. -/
theorem run_stays_in_range {lines : List Text} (h : lines.length < 2147483647) :
    (CountersFit lines ∧ lines.length + 1 < UInt32.size ∧
      ∀ i, Within lines.length i → Int32.minValue.toInt ≤ i ∧ i ≤ Int32.maxValue.toInt) ∧
    Throughout lines Env.IndicesInRange ∧ ∀ line, SlicesFit line := by
  refine ⟨⟨countersFit lines, ?_, ?_⟩, ?_, slicesFit⟩
  · have hsize : UInt32.size = 4294967296 := rfl
    omega
  · intro i ⟨hlower, hupper⟩
    have hmin : Int32.minValue.toInt = -2147483648 := by decide
    have hmax : Int32.maxValue.toInt = 2147483647 := by decide
    omega
  · have hlayered : Throughout lines Env.Layered :=
      throughout_of_kept (fun _ op he => he.apply op) .empty lines
    exact hlayered.imp fun _ he => he.indicesInRange

/-- Lines that only close blocks, and one with a line break in it. -/
def sampleBraces : List Text := ["\x7d".toList, "  \x7d ".toList, "\x7d\n".toList]

/-- The survey counts below zero and reaches the end of the range. -/
theorem sampleBraces_stay_in_range :
    sampleBraces.length < 2147483647 ∧ (surveyTo sampleBraces 3).state.nesting = -3 ∧
      Within sampleBraces.length (surveyTo sampleBraces 3).state.nesting ∧
      Throughout sampleBraces Env.IndicesInRange := by
  have hlength : sampleBraces.length < 2147483647 := by decide
  have hrange := run_stays_in_range hlength
  exact ⟨hlength, by decide +kernel, (hrange.1.1.survey 3).1, hrange.2.1⟩

end Verifier
end SJava
