/-
When a name counts as declared already.

Inside a method a declaration fails if the frame of its block has a variable of that name.
A declaration of the block may have put it there, or an assignment to a global variable
that has no value, which leaves a copy in the frame of the method's body.  The fault is the
same.  Which of the two it was can be read off the text, because the marks in the frames
follow its events: each line that the inspection accepts inside a method goes through its
events one by one (`Env.path_of_inspectLine`), and before every line the marks are right
(`Verifier.records_inspectionTo`).
-/
import SJava.Proofs.Findings
import SJava.Proofs.Initialization
import SJava.Proofs.Marks

namespace SJava

open Text

/-! ## Lines -/

theorem change_flatMap_valueEvents {α : Type} {f : α → Text} {as : List α} {ev : Event}
    (h : ev ∈ as.flatMap fun a => valueEvents (f a)) : ev.change = 0 := by
  obtain ⟨a, _, ha⟩ := List.mem_flatMap.mp h
  exact change_valueEvents ha

/-- The events of a line open and close the blocks that its category says. -/
theorem rise_lineEvents (line : Text) : rise (lineEvents line) = (Category.of line).change := by
  cases hc : Category.of line with
  | variableDeclaration | variableAssignment | methodCall | returnStatement =>
      exact rise_eq_zero fun ev => change_lineEvents line (by simp [hc])
  | conditionalBlockStart =>
      rw [lineEvents, hc]
      show rise (_ ++ [Event.openBlock]) = 1
      rw [rise_append, rise_eq_zero fun _ => change_flatMap_valueEvents]
      rfl
  | methodDeclaration | blockEnd | illegalComment | unknown =>
      rw [lineEvents, hc]
      rfl

/-- Only the last event of a line opens or closes a block. -/
theorem rise_take_lineEvents {line : Text} {k : Nat} (hk : k < (lineEvents line).length) :
    rise ((lineEvents line).take k) = 0 := by
  cases hc : Category.of line with
  | variableDeclaration | variableAssignment | methodCall | returnStatement =>
      exact rise_eq_zero fun ev hev =>
        change_lineEvents line (by simp [hc]) (List.mem_of_mem_take hev)
  | conditionalBlockStart =>
      simp only [lineEvents, hc] at hk ⊢
      rw [List.length_append, List.length_singleton] at hk
      rw [List.take_append_of_le_length (by omega)]
      exact rise_eq_zero fun _ hev => change_flatMap_valueEvents (List.mem_of_mem_take hev)
  | methodDeclaration | blockEnd | illegalComment | unknown =>
      simp only [lineEvents, hc, List.length_singleton, List.length_nil] at hk ⊢
      obtain rfl : k = 0 := by omega
      rfl

/-- A line that the inspection accepts inside a method goes through its events. -/
theorem Env.path_of_inspectLine {e e' : Env} {afterReturn : Bool} {line : Text}
    (he : e.locals ≠ []) (h : (e.inspectLine afterReturn line).result? = some e') :
    Path e (lineEvents line) e' := by
  have hg := isGlobal_eq_false he
  rw [Env.inspectLine] at h
  cases hc : Category.of line with
  | illegalComment | unknown => simp [hc, Rule.standard, Rule.apply] at h
  | variableDeclaration =>
      simp only [hc, Rule.standard, Rule.apply] at h
      exact path_of_declareLine hc (by simp [hg]) h
  | variableAssignment =>
      simp only [hc, Rule.standard, Rule.apply, hg, Bool.false_eq_true, if_false] at h
      exact path_of_assignLine hc h
  | methodDeclaration =>
      simp only [hc, Rule.standard, Rule.apply] at h
      obtain ⟨_, _, _, hl, _⟩ := result?_headerLine_eq_some h
      exact absurd hl he
  | methodCall =>
      simp only [hc, Rule.standard, Rule.apply, Outcome.result?_require] at h
      split at h
      · next hok =>
        obtain rfl := Option.some.inj h
        exact path_of_checkCall hc hok
      · simp at h
  | conditionalBlockStart =>
      simp only [hc, Rule.standard, Rule.apply, openBlock, hg, Bool.false_eq_true, if_false] at h
      rw [lineEvents, hc]
      split at h
      · simp at h
      next os hos =>
      rw [Outcome.result?_require] at h
      split at h
      · next hok =>
        obtain rfl := Option.some.inj h
        exact (path_of_checkOperands hos hok).append (.single (.openBlock e))
      · simp at h
  | blockEnd =>
      simp only [hc, Rule.standard, Rule.apply] at h
      obtain ⟨f, outer, hl, rfl⟩ := result?_closeBlock_eq_some h
      have hleave : e.leave = { e with locals := outer } := by rw [leave, hl]; rfl
      rw [lineEvents, hc, ← hleave]
      exact .single (.close e)
  | returnStatement =>
      simp only [hc, Rule.standard, Rule.apply, Outcome.result?_require] at h
      rw [lineEvents, hc]
      split at h
      · obtain rfl := Option.some.inj h
        exact .nil e
      · simp at h

/-! ## Points of the inspection -/

/-- The position of the first event that does not belong to the first `k` lines. -/
def position (lines : List Text) (k : Nat) : Nat := (events (lines.take k)).length

theorem events_append (as bs : List Text) : events (as ++ bs) = events as ++ events bs := by
  rw [events, significant, List.filterMap_append, List.flatMap_append]
  rfl

theorem events_singleton (raw : Text) :
    events [raw] = if isSkippable raw then [] else lineEvents (trim raw) := by
  cases hs : isSkippable raw <;> simp [events, significant, hs]

section Positions

variable {lines : List Text} {k : Nat} {raw : Text}

theorem position_succ (hk : lines[k]? = some raw) :
    position lines (k + 1) = position lines k + (events [raw]).length := by
  rw [position, List.take_add_one, hk, Option.toList_some, events_append, List.length_append]
  rfl

theorem events_eq_append (hk : lines[k]? = some raw) :
    events lines = events (lines.take k) ++ (events [raw] ++ events (lines.drop (k + 1))) := by
  obtain ⟨hlt, rfl⟩ := List.getElem?_eq_some_iff.mp hk
  rw [← events_append, ← events_append, List.singleton_append, ← List.drop_eq_getElem_cons hlt,
    List.take_append_drop]

theorem blocksAt_position (lines : List Text) (k : Nat) :
    blocksAt (events lines) (position lines k) = blockChange (significant (lines.take k)) := by
  have hrise (ls : List Text) : rise (ls.flatMap lineEvents) = blockChange ls := by
    induction ls with
    | nil => rfl
    | cons line ls ih =>
        rw [List.flatMap_cons, rise_append, ih, rise_lineEvents]
        rfl
  rw [← hrise, ← events, blocksAt, position]
  conv_lhs => rw [← List.take_append_drop k lines, events_append]
  rw [List.take_append_drop, List.take_left]

/-- No block is opened or closed before the last event of a line. -/
theorem blocksAt_position_add (hk : lines[k]? = some raw) (hs : isSkippable raw = false) {j : Nat}
    (hj : j < (lineEvents (trim raw)).length) :
    blocksAt (events lines) (position lines k + j) =
      blocksAt (events lines) (position lines k) := by
  have hE := events_eq_append hk
  rw [events_singleton, hs, if_neg Bool.false_ne_true] at hE
  have hat {n : Nat} (hn : n ≤ (lineEvents (trim raw)).length) :
      blocksAt (events lines) (position lines k + n) =
        rise (events (lines.take k)) + rise ((lineEvents (trim raw)).take n) := by
    rw [position, ← blocksAt_append hn, ← hE]
  rw [hat (Nat.le_of_lt hj), rise_take_lineEvents hj]
  exact (hat (Nat.zero_le _)).symm

end Positions

namespace Verifier

variable {lines : List Text} {k : Nat} {raw : Text}

/-- The survey counts the blocks that the text has open. -/
theorem nesting_surveyTo (h : (surveyTo lines k).failure = none) :
    (surveyTo lines k).state.nesting = blocksAt (events lines) (position lines k) := by
  have hs : (Outcome.each Progress.survey Progress.start (significant (lines.take k))).result? =
      some (surveyTo lines k).state.progress := by
    rw [← view_surveyTo, Outcome.result?_view, Outcome.failure_eq_none_iff.mp h]
    rfl
  rw [blocksAt_position]
  exact (Progress.nesting_each_survey hs).trans (Int.zero_add _)

theorem length_inspectionTo (hok : (start.survey lines).failure = none)
    (h : (inspectionTo lines k).failure = none) :
    ((inspectionTo lines k).state.env.locals.length : Int) =
      blocksAt (events lines) (position lines k) := by
  have hd := depth_inspectionTo hok h
  rw [Env.depth, nesting_surveyTo ((surveyTo_of_survey hok).1 k)] at hd
  omega

theorem env_inspectionTo_of_skippable (hk : lines[k]? = some raw) (hs : isSkippable raw)
    (h : (inspectionTo lines (k + 1)).failure = none) :
    (inspectionTo lines (k + 1)).state.env = (inspectionTo lines k).state.env := by
  rw [inspectionTo_succ hk] at h ⊢
  rw [Outcome.andThen, (Outcome.failure_andThen_eq_none.mp h).1]
  simp [inspectLine, hs, Outcome.ok]

/-- A header is entered with the parameters that stand in it. -/
theorem enter_inspectionTo (hok : (start.survey lines).failure = none)
    (hk : lines[k]? = some raw) (hs : isSkippable raw = false)
    (hc : Category.of (trim raw) = .methodDeclaration)
    (h : (inspectionTo lines (k + 1)).failure = none)
    (hpre : (inspectionTo lines k).failure = none) :
    ∃ ps : List Parameter, lineEvents (trim raw) = [.enter (ps.map (·.name))] ∧
      (inspectionTo lines (k + 1)).state.env =
        { (inspectionTo lines k).state.env with locals := [Frame.ofParameters ps] } := by
  obtain ⟨hd, s, hhd, hl, hsig, _, henv⟩ := headerLine_of_succ hk hs hc h
  obtain ⟨hd', s', hhd', hs', _, hsig'⟩ :=
    exists_signature_of_nesting hok hk hs hc (nesting_eq_zero hok hpre hl)
  obtain rfl : hd = hd' := Option.some.inj (hhd.symm.trans hhd')
  obtain rfl : s = s' := by
    rw [env_inspectionTo_eq hl] at hsig
    exact Option.some.inj (hsig.symm.trans hsig')
  refine ⟨s.parameters, ?_, henv⟩
  have hnames : parameterNames (trim raw) = s.parameters.map (·.name) := by
    simp [parameterNames, hhd, hs', Except.toOption]
  rw [lineEvents, hc, ← hnames]

/-- One line of the inspection keeps the marks right. -/
theorem records_inspectionTo_succ (hok : (start.survey lines).failure = none)
    (hk : lines[k]? = some raw) (h : (inspectionTo lines (k + 1)).failure = none)
    (hpre : (inspectionTo lines k).failure = none)
    (hrec : (inspectionTo lines k).state.env.Records (surveyed lines).env.globals (events lines)
      (position lines k)) :
    (inspectionTo lines (k + 1)).state.env.Records (surveyed lines).env.globals (events lines)
      (position lines (k + 1)) := by
  have hE := events_eq_append hk
  have hlen := length_inspectionTo hok hpre
  rw [position_succ hk]
  cases hs : isSkippable raw with
  | true =>
      rw [events_singleton, hs, env_inspectionTo_of_skippable hk hs h]
      exact hrec
  | false =>
      rw [events_singleton, hs, if_neg Bool.false_ne_true] at hE ⊢
      have hres := result?_inspect_succ hk hs h
      rw [Progress.result?_inspect] at hres
      obtain ⟨e', he', heq⟩ := Option.map_eq_some_iff.mp hres
      obtain rfl : e' = (inspectionTo lines (k + 1)).state.env := congrArg Progress.env heq
      by_cases hl : (inspectionTo lines k).state.env.locals = []
      · have hzero : blocksAt (events lines) (position lines k) = 0 := by
          rw [← hlen, hl]
          rfl
        have hglobals := sameGlobals_inspectionTo lines k
        have hmoves := Env.moves_inspectLine (e := (inspectionTo lines k).state.env)
          (hglobals.globals ▸ (atTop_surveyed lines).allGlobal) he'
        by_cases hc : Category.of (trim raw) = .methodDeclaration
        · obtain ⟨ps, hps, henv⟩ := enter_inspectionTo hok hk hs hc h hpre
          rw [hps] at hE ⊢
          rw [henv]
          exact .enter hzero (getElem?_of_append hE (k := 0) rfl) hglobals.globals
        · have hnil : (inspectionTo lines (k + 1)).state.env.locals = [] := by
            rw [hl, List.length_nil] at hmoves
            exact List.length_eq_zero_iff.mp (hmoves.eq_zero hc)
          have hlen' := length_inspectionTo hok h
          rw [position_succ hk, events_singleton, hs, if_neg Bool.false_ne_true] at hlen'
          refine ⟨hlen', (sameGlobals_inspectionTo lines (k + 1)).globals, ?_⟩
          rw [hnil]
          trivial
      · have hpos : 0 < blocksAt (events lines) (position lines k) := by
          have := List.length_pos_iff.mpr hl
          omega
        refine ((Env.path_of_inspectLine hl he').run
          (I := fun i e => e.Records (surveyed lines).env.globals (events lines) i)
          (C := fun i _ => 0 < blocksAt (events lines) i) (S := fun _ => True)
          (fun i e ev e' hstep hev hi h =>
            ⟨h.step (atTop_surveyed lines).allGlobal hi hev hstep, trivial⟩)
          (fun j ev hj => ⟨getElem?_of_append hE hj, ?_⟩) hrec).1
        show 0 < blocksAt (events lines) (position lines k + j)
        rw [blocksAt_position_add hk hs (List.getElem?_eq_some_iff.mp hj).1]
        exact hpos

theorem records_inspectionTo (hok : (start.survey lines).failure = none) (hk : k ≤ lines.length)
    (h : (inspectionTo lines k).failure = none) :
    (inspectionTo lines k).state.env.Records (surveyed lines).env.globals (events lines)
      (position lines k) := by
  induction k with
  | zero =>
      have hl := (atTop_surveyed lines).locals
      refine ⟨?_, rfl, ?_⟩
      · show ((surveyed lines).env.locals.length : Int) = 0
        rw [hl]
        rfl
      · show StackRecorded _ _ _ (surveyed lines).env.locals
        rw [hl]
        trivial
  | succ k ih =>
      have hraw : lines[k]? = some lines[k] := List.getElem?_eq_getElem hk
      have hpre : (inspectionTo lines k).failure = none := by
        rw [inspectionTo_succ hraw] at h
        exact (Outcome.failure_andThen_eq_none.mp h).1
      exact records_inspectionTo_succ hok hraw h hpre (ih (by omega) hpre)

end Verifier

/-! ## The fault -/

theorem Clause.forall_ne_of_firstRepeated {seen : List Text} {cs : List Clause}
    (h : firstRepeated seen cs = none) {j : Nat} {c : Clause} (hc : cs[j]? = some c) :
    c.name ∉ seen ∧ ∀ c' ∈ cs.take j, c'.name ≠ c.name := by
  induction cs generalizing seen j with
  | nil => simp at hc
  | cons c₀ cs ih =>
      rw [firstRepeated] at h
      split at h
      · simp at h
      next hseen =>
      cases j with
      | zero =>
          obtain rfl : c₀ = c := Option.some.inj hc
          exact ⟨by simpa using hseen, by simp⟩
      | succ j =>
          obtain ⟨hnot, hrest⟩ := ih h hc
          rw [List.mem_cons, not_or] at hnot
          refine ⟨hnot.2, ?_⟩
          rw [List.take_succ_cons]
          exact List.forall_mem_cons.mpr ⟨Ne.symm hnot.1, hrest⟩

namespace Env

variable {e : Env} {x : Text}

theorem declaresHere_declare_of_ne {y : Text} (hy : y ≠ x) (ty : Ty) (isFinal i : Bool) :
    (e.declare y ty isFinal i).state.declaresHere x = e.declaresHere x := by
  cases hl : e.locals <;>
    simp [declare, declaresHere, hl, Outcome.map, Frame.declares, Frame.find?_declare_of_ne hy.symm]

theorem declaresHere_declareClause_of_ne {d : Declarator} {c : Clause} (hc : c.name ≠ x) :
    (declareClause d e c).state.declaresHere x = e.declaresHere x := by
  unfold declareClause
  split
  · rfl
  split
  · rfl
  split
  · split
    · rfl
    · exact declaresHere_declare_of_ne hc _ _ _
  · exact state_require (P := fun t => t.declaresHere x = e.declaresHere x) rfl
      (declaresHere_declare_of_ne hc _ _ _)

theorem checkValue_ne_alreadyDeclared {ty : Ty} {v : Text} :
    e.checkValue ty v ≠ .error (.variableAlreadyDeclared x) := by
  unfold checkValue
  repeat' split
  all_goals simp

theorem declaresHere_of_declareClause {d : Declarator} {c : Clause}
    (h : (declareClause d e c).failure = some (.variableAlreadyDeclared x)) :
    c.name = x ∧ e.declaresHere x := by
  unfold declareClause at h
  split at h
  · simp [Outcome.fail] at h
  split at h
  · next hd =>
    have hname : c.name = x := by simpa [Outcome.fail] using h
    exact ⟨hname, hname ▸ hd⟩
  next hd =>
  have hnew := failure_declare_of_declaresHere (Bool.eq_false_iff.mpr hd) d.ty d.isFinal
  split at h
  · split at h
    · simp [Outcome.fail] at h
    · simp [hnew] at h
  · next v _ =>
    cases hv : e.checkValue d.ty v with
    | error fault =>
        have hfault : fault = .variableAlreadyDeclared x := by
          simpa [hv, Outcome.require, Outcome.fail] using h
        exact absurd (hfault ▸ hv) checkValue_ne_alreadyDeclared
    | ok u => simp [hv, Outcome.require, hnew] at h

/-- If a declaration fails because a name is declared already, the frame has a variable of
that name before the line. -/
theorem declaresHere_of_declareLine {pass : Pass} {line : Text}
    (h : (e.declareLine pass line).failure = some (.variableAlreadyDeclared x)) :
    ∃ d, Declaration.parse? line = some d ∧ (∃ c ∈ d.clauses, c.name = x) ∧ e.declaresHere x := by
  rw [declareLine_eq] at h
  split at h
  · simp [Outcome.ok] at h
  split at h
  · simp [Outcome.fail] at h
  next d hd =>
  split at h
  · simp [Outcome.fail] at h
  next hrep =>
  obtain ⟨j, c, hc, _, hstep⟩ := Outcome.exists_of_failure_each h
  obtain ⟨rfl, hhere⟩ := declaresHere_of_declareClause hstep
  refine ⟨d, hd, ⟨c, List.mem_of_getElem? hc, rfl⟩, ?_⟩
  have hne := (Clause.forall_ne_of_firstRepeated hrep hc).2
  rw [← hhere]
  refine (Outcome.state_each_of_mem
    (P := fun t : Env => t.declaresHere c.name = e.declaresHere c.name)
    (fun t c' hmem ht => ?_) rfl).symm
  exact (declaresHere_declareClause_of_ne (hne c' hmem)).trans ht

end Env

open Verifier in
/-- Let a program be refused because a declaration inside a method declares `x` although it is
declared already.  Then the method or an earlier statement of the same block declares `x`, as
a parameter or as a variable, unless the line stands in the body of the method itself and the
method has assigned the global variable `x`, which has no value, by then.  In that case
nothing in the block declares `x`. -/
theorem alreadyDeclared_by_block_iff_not_borrowed {lines : List Text} {k : Nat} {raw x : Text}
    (hk : lines[k]? = some raw) (hc : Category.of (trim raw) = .variableDeclaration)
    (hin : 0 < blocksAt (events lines) (position lines k))
    (h : verify lines = some ⟨.variableAlreadyDeclared x, k + 1⟩) :
    (∃ decl, Declaration.parse? (trim raw) = some decl ∧ ∃ c ∈ decl.clauses, c.name = x) ∧
      ((∃ d, Declares (events lines) d x ∧
          level (events lines) d = blocksAt (events lines) (position lines k) ∧
          OpenTo (events lines) d (position lines k)) ↔
        ¬ (blocksAt (events lines) (position lines k) = 1 ∧
          Borrowed (surveyed lines).env.globals (events lines) (position lines k) x)) := by
  cases finding_of_verify h with
  | @survey _ k' raw' hk' hs hline hpre hstep =>
      obtain rfl : k = k' := by simpa using hline
      have hn : (surveyTo lines k).state.nesting = 0 := (Progress.failure_survey hstep).1
      rw [nesting_surveyTo hpre] at hn
      omega
  | @inspection _ k' raw' hok hk' hs hline hpre hstep =>
      obtain rfl : k = k' := by simpa using hline
      obtain rfl : raw = raw' := Option.some.inj (hk.symm.trans hk')
      rw [Progress.failure_inspect, Env.inspectLine, hc] at hstep
      obtain ⟨decl, hdecl, hclause, hhere⟩ := Env.declaresHere_of_declareLine hstep
      refine ⟨⟨decl, hdecl, hclause⟩, ?_⟩
      have hlt : k < lines.length := (List.getElem?_eq_some_iff.mp hk).1
      have hrec := records_inspectionTo hok (Nat.le_of_lt hlt) hpre
      have hlen := hrec.length
      have hstack := hrec.stack
      cases hl : (inspectionTo lines k).state.env.locals with
      | nil =>
          rw [hl, List.length_nil] at hlen
          omega
      | cons f outer =>
          rw [hl] at hlen hstack
          rw [List.length_cons] at hlen
          have hf : f.declares x = true := by
            simpa [Env.declaresHere, progress, hl] using hhere
          have hown : (∃ d, Declares (events lines) d x ∧
              level (events lines) d = blocksAt (events lines) (position lines k) ∧
              OpenTo (events lines) d (position lines k)) ↔ f.mark? x = some false := by
            rw [hstack.1.own, ← hlen]
            rfl
          have hborrowed : (blocksAt (events lines) (position lines k) = 1 ∧
              Borrowed (surveyed lines).env.globals (events lines) (position lines k) x) ↔
                f.mark? x = some true := by
            rw [hstack.1.borrowed, ← hlen]
            exact and_congr_left fun _ => by omega
          rw [hown, hborrowed]
          cases hm : f.mark? x with
          | none =>
              rw [Frame.mark?_eq_none.mp hm] at hf
              exact absurd hf (by decide)
          | some m => cases m <;> simp

/-- The block declares the name of a global variable twice, which the method has assigned
before. -/
def sampleTwice : List Text :=
  Text.lines ("int g;\nvoid f(int a) \x7b\ng = a;\nif (a) \x7b\nint b, g = 1;\n" ++
    "double g;\n\x7d\nreturn;\n\x7d\n").toList

theorem sampleTwice_declared_by_block :
    sampleTwice[5]? = some "double g;".toList ∧
      Category.of (trim "double g;".toList) = .variableDeclaration ∧
      0 < blocksAt (events sampleTwice) (position sampleTwice 5) ∧
      verify sampleTwice = some ⟨.variableAlreadyDeclared ['g'], 6⟩ ∧
      ((∃ d, Declares (events sampleTwice) d ['g'] ∧
          level (events sampleTwice) d = blocksAt (events sampleTwice) (position sampleTwice 5) ∧
          OpenTo (events sampleTwice) d (position sampleTwice 5)) ↔
        ¬ (blocksAt (events sampleTwice) (position sampleTwice 5) = 1 ∧
          Borrowed (Verifier.surveyed sampleTwice).env.globals (events sampleTwice)
            (position sampleTwice 5) ['g'])) :=
  have hk : sampleTwice[5]? = some "double g;".toList := by decide +kernel
  have hc : Category.of (trim "double g;".toList) = .variableDeclaration := by decide +kernel
  have hin : 0 < blocksAt (events sampleTwice) (position sampleTwice 5) := by decide +kernel
  have h : verify sampleTwice = some ⟨.variableAlreadyDeclared ['g'], 6⟩ := by decide +kernel
  ⟨hk, hc, hin, h, (alreadyDeclared_by_block_iff_not_borrowed hk hc hin h).2⟩

/-- The method assigns a global variable without a value, and then declares its name. -/
def sampleBorrowed : List Text :=
  Text.lines "int g;\nvoid foo() \x7b\ng = 5;\nint g = 1;\nreturn;\n\x7d\n".toList

/-- The declaration is refused, although it is the first of its name in the method. -/
theorem sampleBorrowed_not_declared_by_block :
    sampleBorrowed[3]? = some "int g = 1;".toList ∧
      Category.of (trim "int g = 1;".toList) = .variableDeclaration ∧
      0 < blocksAt (events sampleBorrowed) (position sampleBorrowed 3) ∧
      verify sampleBorrowed = some ⟨.variableAlreadyDeclared ['g'], 4⟩ ∧
      ¬ ∃ d, Declares (events sampleBorrowed) d ['g'] ∧
        level (events sampleBorrowed) d = blocksAt (events sampleBorrowed)
          (position sampleBorrowed 3) ∧
        OpenTo (events sampleBorrowed) d (position sampleBorrowed 3) := by
  refine ⟨by decide +kernel, by decide +kernel, by decide +kernel, by decide +kernel, ?_⟩
  have hE : events sampleBorrowed =
      [.declare ['g'] false, .enter [], .assign ['g'], .declare ['g'] true, .close] := by
    decide +kernel
  have hp : position sampleBorrowed 3 = 3 := by decide +kernel
  rw [hE, hp]
  rintro ⟨d, ⟨ev, hev, hx⟩, hlevel, hlt, _⟩
  have hd : d = 0 ∨ d = 1 ∨ d = 2 := by omega
  rcases hd with rfl | rfl | rfl
  · exact absurd hlevel (by decide)
  · obtain rfl : Event.enter [] = ev := Option.some.inj hev
    exact absurd hx (by decide)
  · obtain rfl : Event.assign ['g'] = ev := Option.some.inj hev
    exact absurd hx (by decide)

end SJava
