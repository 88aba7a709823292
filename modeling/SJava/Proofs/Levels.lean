/-
The two walks agree on what lies outside every block.

The survey counts open blocks by the grammars of the lines, and the inspection keeps a
frame for each.  After lines that both have accepted, the count is the number of frames.
This rests on one inversion: an accepted line moves the number of open blocks as its
category says (`moves_inspectLine`), and the survey counts by the same categories.  What
follows is that each walk can rely on the other.  The methods that the inspection enters
and the global lines it passes over are those that the survey has handled, line by line.
-/
import SJava.Proofs.GlobalKnowledge

namespace SJava

open Text

/-! ## Moves -/

/-- From how many open blocks to how many an accepted line of a category leads. -/
def Category.Moves (n m : Nat) : Category → Prop
  | .methodDeclaration => n = 0 ∧ m = 1
  | .conditionalBlockStart => 0 < n ∧ m = n + 1
  | .blockEnd => n = m + 1
  | .methodCall | .returnStatement => 0 < n ∧ m = n
  | .variableDeclaration | .variableAssignment => m = n
  | .illegalComment | .unknown => False

theorem Category.Moves.eq_add_change {n m : Nat} {c : Category} (h : c.Moves n m) :
    (m : Int) = n + c.change := by
  cases c <;> simp only [Moves] at h <;> simp only [change] <;> omega

/-- Outside every block only a header opens one. -/
theorem Category.Moves.eq_zero {m : Nat} {c : Category} (h : c.Moves 0 m)
    (hc : c ≠ .methodDeclaration) : m = 0 := by
  cases c <;> simp_all [Moves]

theorem Env.length_pos_of_isGlobal {e : Env} (h : e.isGlobal = false) : 0 < e.locals.length := by
  rw [List.length_pos_iff]
  intro hl
  rw [isGlobal_eq_true hl] at h
  exact absurd h (by decide)

/-- The inspection accepts a line only where its category may stand, and opens or closes
the block that the category says. -/
theorem Env.moves_inspectLine {e e' : Env} {afterReturn : Bool} {line : Text}
    (hg : e.globals.AllGlobal) (h : (e.inspectLine afterReturn line).result? = some e') :
    (Category.of line).Moves e.locals.length e'.locals.length := by
  have hstate := (Outcome.result?_eq_some_iff.mp h).2
  unfold Env.inspectLine at h hstate
  generalize Category.of line = c at h hstate ⊢
  cases c with
  | illegalComment => simp [Rule.standard, Rule.apply] at h
  | unknown => simp [Rule.standard] at h
  | methodDeclaration =>
      obtain ⟨hd, s, _, hl, _, _, rfl⟩ := Env.result?_headerLine_eq_some h
      exact ⟨by rw [hl]; rfl, rfl⟩
  | variableDeclaration =>
      rw [← hstate]
      exact (e.sameBlocks_declareLine line).length
  | variableAssignment =>
      rw [← hstate]
      show (if e.isGlobal then Outcome.ok e else e.assignLine line).state.locals.length = _
      split
      · rfl
      · next hl =>
        exact (sameBlocks_assignLine (fun h => hl (isGlobal_eq_true h)) hg line).length
  | conditionalBlockStart =>
      obtain ⟨hl, rfl⟩ := result?_openBlock_eq_some h
      exact ⟨length_pos_of_isGlobal hl, rfl⟩
  | blockEnd =>
      obtain ⟨f, outer, hl, rfl⟩ := result?_closeBlock_eq_some h
      rw [hl]
      rfl
  | methodCall =>
      simp only [Rule.standard, Rule.apply, Outcome.result?_require] at h
      split at h
      · next hcall =>
        obtain rfl := Option.some.inj h
        exact ⟨length_pos_of_isGlobal (isGlobal_eq_false_of_checkCall hcall), rfl⟩
      · simp at h
  | returnStatement =>
      simp only [Rule.standard, Rule.apply, Outcome.result?_require] at h
      split at h
      · next hret =>
        obtain rfl := Option.some.inj h
        exact ⟨length_pos_of_isGlobal (isGlobal_eq_false_of_checkReturn hret), rfl⟩
      · simp at h

def blockChange (lines : List Text) : Int :=
  lines.foldr (fun line n => (Category.of line).change + n) 0

namespace Progress

theorem nesting_each_survey {p q : Progress} {lines : List Text}
    (h : (Outcome.each survey p lines).result? = some q) :
    q.nesting = p.nesting + blockChange lines := by
  induction lines generalizing p with
  | nil =>
      obtain rfl : p = q := Option.some.inj h
      simp [blockChange]
  | cons line lines ih =>
      rw [Outcome.result?_each_cons] at h
      obtain ⟨r, hr, hq⟩ := Option.bind_eq_some_iff.mp h
      rw [result?_survey] at hr
      obtain ⟨e, _, rfl⟩ := Option.map_eq_some_iff.mp hr
      have hrest := ih hq
      simp only [blockChange, List.foldr_cons] at hrest ⊢
      omega

theorem moves_inspect {p q : Progress} {line : Text} (hg : p.env.globals.AllGlobal)
    (h : (p.inspect line).result? = some q) :
    (Category.of line).Moves p.env.locals.length q.env.locals.length := by
  rw [result?_inspect] at h
  obtain ⟨e, he, rfl⟩ := Option.map_eq_some_iff.mp h
  exact Env.moves_inspectLine hg he

theorem sameGlobals_of_result? {p q : Progress} {line : Text} (hg : p.env.globals.AllGlobal)
    (h : (p.inspect line).result? = some q) : p.env.SameGlobals q.env := by
  rw [← (Outcome.result?_eq_some_iff.mp h).2]
  exact sameGlobals_inspect hg line

theorem exists_of_each_inspect_cons {p q : Progress} {line : Text} {lines : List Text}
    (hg : p.env.globals.AllGlobal)
    (h : (Outcome.each inspect p (line :: lines)).result? = some q) :
    ∃ t : Progress, (Category.of line).Moves p.env.locals.length t.env.locals.length ∧
      t.env.globals.AllGlobal ∧ (Outcome.each inspect t lines).result? = some q := by
  rw [Outcome.result?_each_cons] at h
  obtain ⟨t, ht, hq⟩ := Option.bind_eq_some_iff.mp h
  refine ⟨t, moves_inspect hg ht, ?_, hq⟩
  rw [(sameGlobals_of_result? hg ht).globals]
  exact hg

theorem length_each_inspect {p q : Progress} {lines : List Text} (hg : p.env.globals.AllGlobal)
    (h : (Outcome.each inspect p lines).result? = some q) :
    (q.env.locals.length : Int) = p.env.locals.length + blockChange lines := by
  induction lines generalizing p with
  | nil =>
      obtain rfl : p = q := Option.some.inj h
      simp [blockChange]
  | cons line lines ih =>
      obtain ⟨t, hmoves, hg', hq⟩ := exists_of_each_inspect_cons hg h
      have hstep := hmoves.eq_add_change
      have hrest := ih hg' hq
      simp only [blockChange, List.foldr_cons] at hrest ⊢
      omega

/-- No line outside every block is a return, so there none is remembered. -/
theorem afterReturn_each_inspect {p q : Progress} {lines : List Text}
    (hg : p.env.globals.AllGlobal) (hp : p.afterReturn = false)
    (h : (Outcome.each inspect p lines).result? = some q) (hq : q.env.locals = []) :
    q.afterReturn = false := by
  rcases List.eq_nil_or_concat lines with rfl | ⟨front, last, rfl⟩
  · obtain rfl : p = q := Option.some.inj h
    exact hp
  · rw [List.concat_eq_append, Outcome.result?_each_append] at h
    obtain ⟨t, ht, hlast⟩ := Option.bind_eq_some_iff.mp h
    rw [Outcome.result?_each_singleton] at hlast
    have hgt : t.env.globals.AllGlobal := by
      rw [← (Outcome.result?_eq_some_iff.mp ht).2, (sameGlobals_each_inspect hg front).globals]
      exact hg
    have hmoves := moves_inspect hgt hlast
    rw [result?_inspect] at hlast
    obtain ⟨e, _, rfl⟩ := Option.map_eq_some_iff.mp hlast
    refine decide_eq_false fun hc => ?_
    rw [hc] at hmoves
    obtain ⟨hpos, heq⟩ : 0 < t.env.locals.length ∧ e.locals.length = t.env.locals.length := hmoves
    rw [show e.locals = [] from hq, List.length_nil] at heq
    omega

/-- Where the inspection is outside every block again, it is where it began. -/
theorem eq_of_each_inspect {e : Env} (he : e.AtTop) {lines : List Text} {q : Progress}
    (h : (Outcome.each inspect ⟨e, 0, false⟩ lines).result? = some q) (hq : q.env.locals = []) :
    q = ⟨e, 0, false⟩ := by
  have hsame := sameGlobals_each_inspect (p := ⟨e, 0, false⟩) he.allGlobal lines
  have hnest := Outcome.state_each (P := fun p : Progress => p.nesting = 0) (s := ⟨e, 0, false⟩)
    (fun p line hp => (nesting_inspect p line).trans hp) rfl lines
  have hflag := afterReturn_each_inspect (p := ⟨e, 0, false⟩) he.allGlobal rfl h hq
  rw [(Outcome.result?_eq_some_iff.mp h).2] at hsame hnest
  have henv : q.env = e := hsame.eq_of_locals (hq.trans he.locals.symm)
  cases q
  simp only at henv hnest hflag
  rw [henv, hnest, hflag]

end Progress

/-! ## What the survey registers -/

theorem Header.name_of_signature {h : Header} {s : Signature} (hs : h.signature = .ok s) :
    s.name = h.name := by
  unfold Header.signature at hs
  split at hs
  · simp at hs
  · cases hp : (items h.parameters).mapM Parameter.parse with
    | error fault => simp [hp, Except.map] at hs
    | ok ps =>
        simp only [hp, Except.map, Except.ok.injEq] at hs
        rw [← hs]

theorem Env.signature?_surveyLine {e : Env} {m : Text} {s : Signature}
    (h : e.signature? m = some s) (line : Text) :
    (e.surveyLine line).state.signature? m = some s := by
  unfold Env.surveyLine
  split
  · exact signature?_headerLine_survey h line
  · rw [signature?, methods_declareLine]
    exact h
  · rw [signature?, methods_assignLine]
    exact h
  · exact h

theorem Progress.signature?_each_survey {p : Progress} {m : Text} {s : Signature}
    (h : p.env.signature? m = some s) (lines : List Text) :
    (Outcome.each survey p lines).state.env.signature? m = some s := by
  refine Outcome.state_each (P := fun q : Progress => q.env.signature? m = some s)
    (fun q line hq => ?_) h lines
  refine Outcome.state_andThen (P := fun q : Progress => q.env.signature? m = some s) ?_
    fun q hq => hq
  split
  · exact Env.signature?_surveyLine hq line
  · exact hq

namespace Verifier

theorem signature?_surveyed {lines : List Text} {k : Nat} {m : Text} {s : Signature}
    (hok : (start.survey lines).failure = none)
    (h : (surveyTo lines k).state.env.signature? m = some s) :
    (surveyed lines).env.signature? m = some s := by
  have hsplit : surveyTo lines lines.length =
      (surveyTo lines k).andThen fun v => Outcome.each surveyLine v (lines.drop k) := by
    rw [surveyTo, surveyTo, ← Outcome.each_append, List.take_append_drop, List.take_length]
  have hrest := Progress.signature?_each_survey
    (p := (surveyTo lines k).state.progress) h (significant (lines.drop k))
  rw [← view_each_surveyLine] at hrest
  rw [surveyed_eq, hsplit, Outcome.andThen, (surveyTo_of_survey hok).1 k]
  exact hrest

/-- Where the survey counts no open block, it has handled the line. -/
theorem result?_surveyLine_of_nesting {lines : List Text} {k : Nat} {raw : Text}
    (hok : (start.survey lines).failure = none) (hk : lines[k]? = some raw)
    (hs : isSkippable raw = false) (hn : (surveyTo lines k).state.nesting = 0) :
    ((surveyTo lines k).state.env.surveyLine (trim raw)).result? =
      some (surveyTo lines (k + 1)).state.env := by
  have hres := result?_survey_succ hk hs ((surveyTo_of_survey hok).1 (k + 1))
  have hn' : (surveyTo lines k).state.progress.nesting = 0 := hn
  rw [Progress.result?_survey, if_pos hn'] at hres
  obtain ⟨e, he, heq⟩ := Option.map_eq_some_iff.mp hres
  rw [← show e = (surveyTo lines (k + 1)).state.env from congrArg Progress.env heq]
  exact he

/-- The survey makes the method known whose header stands outside every block. -/
theorem exists_signature_of_nesting {lines : List Text} {k : Nat} {raw : Text}
    (hok : (start.survey lines).failure = none) (hk : lines[k]? = some raw)
    (hs : isSkippable raw = false) (hc : Category.of (trim raw) = .methodDeclaration)
    (hn : (surveyTo lines k).state.nesting = 0) :
    ∃ hd s, Header.parse? (trim raw) = some hd ∧ hd.signature = .ok s ∧
      (surveyTo lines (k + 1)).state.env.methods = s :: (surveyTo lines k).state.env.methods ∧
      (surveyed lines).env.signature? hd.name = some s := by
  have hres := result?_surveyLine_of_nesting hok hk hs hn
  rw [Env.surveyLine, hc] at hres
  rw [show ((surveyTo lines k).state.env.headerLine .survey (trim raw)).result? = _ from
    Env.result?_headerLine_survey (atTop_surveyTo lines k).locals _] at hres
  obtain ⟨hd, hhd, he⟩ := Option.bind_eq_some_iff.mp hres
  cases hsig : hd.signature with
  | error fault => simp [hsig] at he
  | ok s =>
      simp only [hsig] at he
      split at he
      · have henv := Option.some.inj he
        refine ⟨hd, s, hhd, hsig, by rw [← henv], ?_⟩
        apply signature?_surveyed hok (k := k + 1)
        rw [← henv, ← Header.name_of_signature hsig]
        simp [Env.signature?]
      · simp at he

/-! ## Agreement -/

theorem depth_inspectionTo {lines : List Text} {k : Nat}
    (hok : (start.survey lines).failure = none) (h : (inspectionTo lines k).failure = none) :
    ((inspectionTo lines k).state.env.depth : Int) = 1 + (surveyTo lines k).state.nesting := by
  have hs : (Outcome.each Progress.survey Progress.start (significant (lines.take k))).result? =
      some (surveyTo lines k).state.progress := by
    rw [← view_surveyTo, Outcome.result?_view,
      Outcome.failure_eq_none_iff.mp ((surveyTo_of_survey hok).1 k)]
    rfl
  have hi : (Outcome.each Progress.inspect ⟨(surveyed lines).env, (surveyed lines).nesting, false⟩
      (significant (lines.take k))).result? = some (inspectionTo lines k).state.progress := by
    rw [← view_inspectionTo, Outcome.result?_view, Outcome.failure_eq_none_iff.mp h]
    rfl
  have hnest := Progress.nesting_each_survey hs
  have hlen := Progress.length_each_inspect (atTop_surveyed lines).allGlobal hi
  have htop : (surveyed lines).env.locals.length = 0 := by rw [(atTop_surveyed lines).locals]; rfl
  simp only [progress, Progress.start, htop] at hnest hlen
  rw [Env.depth]
  omega

theorem nesting_eq_zero {lines : List Text} {k : Nat}
    (hok : (start.survey lines).failure = none) (h : (inspectionTo lines k).failure = none)
    (hl : (inspectionTo lines k).state.env.locals = []) :
    (surveyTo lines k).state.nesting = 0 := by
  have hd := depth_inspectionTo hok h
  rw [Env.depth, hl, List.length_nil] at hd
  omega

theorem nesting_inspectionTo (lines : List Text) (k : Nat) :
    (inspectionTo lines k).state.nesting = (surveyed lines).nesting := by
  have h := Outcome.state_each (P := fun q : Progress => q.nesting = (surveyed lines).nesting)
    (s := ⟨(surveyed lines).env, (surveyed lines).nesting, false⟩)
    (fun q line hq => (Progress.nesting_inspect q line).trans hq) rfl (significant (lines.take k))
  rw [← view_inspectionTo] at h
  exact h

/-- The end of the inspection adds no fault of its own. -/
theorem checkClosed_inspectionTo {lines : List Text}
    (hok : (start.survey lines).failure = none)
    (h : (inspectionTo lines lines.length).failure = none) :
    (checkClosed lines.length (inspectionTo lines lines.length).state).failure = none := by
  have hzero := (surveyTo_of_survey hok).2
  have hd := depth_inspectionTo hok h
  rw [← surveyed_eq, hzero] at hd
  have hg : (inspectionTo lines lines.length).state.env.isGlobal = true := by
    rw [Env.isGlobal]
    exact decide_eq_true (by omega)
  simp [checkClosed, nesting_inspectionTo, hzero, hg, Outcome.ok]

/-- A header is entered, or it stands inside a block, or two of its parameters share a
name.  Its method is known. -/
theorem failure_inspectLine_header {lines : List Text} {k : Nat} {raw : Text}
    (hok : (start.survey lines).failure = none) (hk : lines[k]? = some raw)
    (hs : isSkippable raw = false) (hc : Category.of (trim raw) = .methodDeclaration)
    (h : (inspectionTo lines k).failure = none) (m : Text) (n : Nat) :
    ((inspectionTo lines k).state.inspectLine raw).failure ≠ some ⟨.methodNotDeclared m, n⟩ := by
  intro hf
  have hview := congrArg Outcome.failure (view_inspectLine (rules_inspectionTo lines k) raw)
  rw [hs, Outcome.failure_view, hf] at hview
  have hfail : ((inspectionTo lines k).state.env.headerLine .inspection (trim raw)).failure =
      some (.methodNotDeclared m) := by
    have hp := (Progress.failure_inspect (inspectionTo lines k).state.progress (trim raw)).symm
    rw [Env.inspectLine, hc] at hp
    exact hp.trans hview.symm
  unfold Env.headerLine at hfail
  split at hfail
  · simp [Outcome.fail] at hfail
  next hd hhd =>
  split at hfail
  · simp [Outcome.fail] at hfail
  next hg =>
  have hl : (inspectionTo lines k).state.env.locals = [] :=
    Env.isGlobal_iff.mp (by simpa using hg)
  obtain ⟨hd', s, hhd', _, _, hsig⟩ :=
    exists_signature_of_nesting hok hk hs hc (nesting_eq_zero hok h hl)
  obtain rfl : hd = hd' := Option.some.inj (hhd.symm.trans hhd')
  rw [← env_inspectionTo_eq hl] at hsig
  obtain ⟨x, hx⟩ := Env.failure_enterMethod hsig hfail
  simp at hx

theorem surveyLine_of_depth {lines : List Text} {k : Nat} {raw : Text}
    (hok : (start.survey lines).failure = none) (hk : lines[k]? = some raw)
    (hs : isSkippable raw = false) (h : (inspectionTo lines k).failure = none)
    (hd : (inspectionTo lines k).state.env.depth = 1) :
    (surveyTo lines k).state.env.surveyLine (trim raw) =
      .ok (surveyTo lines (k + 1)).state.env := by
  have hl : (inspectionTo lines k).state.env.locals = [] := by
    rw [← Env.isGlobal_iff, Env.isGlobal, hd]
    rfl
  exact Outcome.result?_eq_some_iff_eq_ok.mp
    (result?_surveyLine_of_nesting hok hk hs (nesting_eq_zero hok h hl))

/-- What the two walks over a program agree on, and what each line of the inspection can
take from the survey. -/
structure LevelsAgree (lines : List Text) : Prop where
  /-- After lines that the inspection accepts, there is a frame for each block that the
  survey counts, and the global one. -/
  depth : ∀ k, (inspectionTo lines k).failure = none →
    ((inspectionTo lines k).state.env.depth : Int) = 1 + (surveyTo lines k).state.nesting ∧
      0 ≤ (surveyTo lines k).state.nesting
  /-- No block is left open at the end of the inspection. -/
  closed : (inspectionTo lines lines.length).failure = none →
    (checkClosed lines.length (inspectionTo lines lines.length).state).failure = none
  /-- The method of a header is known. -/
  known : ∀ k raw, lines[k]? = some raw → isSkippable raw = false →
    Category.of (trim raw) = .methodDeclaration → (inspectionTo lines k).failure = none →
    ∀ m n, ((inspectionTo lines k).state.inspectLine raw).failure ≠
      some ⟨.methodNotDeclared m, n⟩
  /-- A body is entered with the parameters that the survey read from the same line. -/
  seeded : ∀ k raw, lines[k]? = some raw → isSkippable raw = false →
    Category.of (trim raw) = .methodDeclaration → (inspectionTo lines (k + 1)).failure = none →
    ∃ hd s, Header.parse? (trim raw) = some hd ∧ hd.signature = .ok s ∧
      (surveyTo lines (k + 1)).state.env.methods = s :: (surveyTo lines k).state.env.methods ∧
      (inspectionTo lines (k + 1)).state.env.locals = [Frame.ofParameters s.parameters]
  /-- A declaration that the inspection passes over has been made by the survey. -/
  declared : ∀ k raw, lines[k]? = some raw → isSkippable raw = false →
    Category.of (trim raw) = .variableDeclaration → (inspectionTo lines k).failure = none →
    (inspectionTo lines k).state.env.depth = 1 →
    (surveyTo lines k).state.env.declareLine .survey (trim raw) =
      .ok (surveyTo lines (k + 1)).state.env
  /-- So has an assignment. -/
  assigned : ∀ k raw, lines[k]? = some raw → isSkippable raw = false →
    Category.of (trim raw) = .variableAssignment → (inspectionTo lines k).failure = none →
    (inspectionTo lines k).state.env.depth = 1 →
    (surveyTo lines k).state.env.assignLine (trim raw) = .ok (surveyTo lines (k + 1)).state.env

/-- If the survey of a program succeeds, the inspection agrees with it on what lies outside
every block, for as long as it finds no fault. -/
theorem levelsAgree_of_survey {lines : List Text} (hok : (start.survey lines).failure = none) :
    LevelsAgree lines where
  depth k h := by
    have hd := depth_inspectionTo hok h
    refine ⟨hd, ?_⟩
    rw [Env.depth] at hd
    omega
  closed := checkClosed_inspectionTo hok
  known k raw hk hs hc h := failure_inspectLine_header hok hk hs hc h
  seeded k raw hk hs hc h := by
    have hpre : (inspectionTo lines k).failure = none := by
      rw [inspectionTo_succ hk] at h
      exact (Outcome.failure_andThen_eq_none.mp h).1
    obtain ⟨hd, s, hhd, hl, hs', _, henv⟩ := headerLine_of_succ hk hs hc h
    obtain ⟨hd', s', hhd', hsig, hmethods, hs''⟩ :=
      exists_signature_of_nesting hok hk hs hc (nesting_eq_zero hok hpre hl)
    obtain rfl : hd = hd' := Option.some.inj (hhd.symm.trans hhd')
    rw [env_inspectionTo_eq hl] at hs'
    obtain rfl : s = s' := Option.some.inj (hs'.symm.trans hs'')
    exact ⟨hd, s, hhd, hsig, hmethods, by rw [henv]⟩
  declared k raw hk hs hc h hd := by
    have hline := surveyLine_of_depth hok hk hs h hd
    rwa [Env.surveyLine, hc] at hline
  assigned k raw hk hs hc h hd := by
    have hline := surveyLine_of_depth hok hk hs h hd
    rwa [Env.surveyLine, hc] at hline

/-- A method between two global declarations, with a block inside it. -/
def sample : List Text :=
  ["int g;".toList, "void f(int a, final double b) \x7b".toList, "  if (a && b) \x7b".toList,
    "    g = 1;".toList, "  \x7d".toList, "  f(g, 2.5);".toList, "  return;".toList,
    "\x7d".toList, "// done".toList, "boolean h = 3;".toList]

theorem levelsAgree_sample :
    (start.survey sample).failure = none ∧ (inspectionTo sample 4).failure = none ∧
      (inspectionTo sample 4).state.env.depth = 3 ∧ LevelsAgree sample :=
  ⟨by decide +kernel, by decide +kernel, by decide +kernel,
    levelsAgree_of_survey (by decide +kernel)⟩

end Verifier
end SJava
