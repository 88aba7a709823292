/-
Layout does not matter.

What the verifier finds is decided by the significant lines: the fault, and which of these
lines it lies on (`Progress.verdict`).  Blank lines, comments and the white space around a
line decide no more than the number under which that line is reported.  So two programs
with the same significant lines are accepted alike, and a fault of theirs is the same one,
reported for each at its own number of the same line (`Finding.verdict`).

A carriage return before a line feed is white space at the end of a line, or no part of the
line at all.  A source whose lines all end so is therefore judged as it is without them, and
as no line moves, with the same numbers.
-/
import SJava.Proofs.Findings
import SJava.Proofs.Segments

namespace SJava

open Text

namespace Outcome

variable {ε σ α : Type}

/-- The position of the first item at which a run fails, and why it does. -/
def firstFailure (step : σ → α → Outcome ε σ) : σ → List α → Option (ε × Nat)
  | _, [] => none
  | s, a :: as =>
    match (step s a).failure with
    | some e => some (e, 0)
    | none => (firstFailure step (step s a).state as).map fun (e, k) => (e, k + 1)

theorem firstFailure_of_failure_each {step : σ → α → Outcome ε σ} {s : σ} {as : List α}
    (h : (each step s as).failure = none) : firstFailure step s as = none := by
  induction as generalizing s with
  | nil => rfl
  | cons a as ih =>
      rw [each] at h
      obtain ⟨hstep, hrest⟩ := failure_andThen_eq_none.mp h
      rw [firstFailure, hstep, ih hrest]
      rfl

theorem firstFailure_of_take (step : σ → α → Outcome ε σ) (s : σ) {as : List α} {k : Nat} {a : α}
    {e : ε} (ha : as[k]? = some a) (hpre : (each step s (as.take k)).failure = none)
    (hstep : (step (each step s (as.take k)).state a).failure = some e) :
    firstFailure step s as = some (e, k) := by
  induction as generalizing s k with
  | nil => simp at ha
  | cons b as ih =>
      cases k with
      | zero =>
          obtain rfl : b = a := by simpa using ha
          rw [firstFailure, show (step s b).failure = some e from hstep]
      | succ k =>
          rw [List.take_succ_cons, each] at hpre hstep
          obtain ⟨hb, hrest⟩ := failure_andThen_eq_none.mp hpre
          rw [andThen, hb] at hstep
          rw [firstFailure, hb, ih _ (by simpa using ha) hrest hstep]
          rfl

end Outcome

/-! ## The verdict -/

/-- The first fault of a program given by its significant lines, and the position among them
of the line it lies on.  The fault of a program that ends inside a block lies on none. -/
def Progress.verdict (ls : List Text) : Option (Fault × Option Nat) :=
  match Outcome.firstFailure survey start ls with
  | some (fault, k) => some (fault, some k)
  | none =>
    let surveyed := (Outcome.each survey start ls).state
    if surveyed.nesting ≠ 0 then some (.unclosedScope, none)
    else
      (Outcome.firstFailure inspect ⟨surveyed.env, 0, false⟩ ls).map
        fun (fault, k) => (fault, some k)

/-- The numbers of the lines that say something, from one. -/
def places (lines : List Text) : List Nat :=
  ((lines.zipIdx 1).filter fun p => !isSkippable p.1).map (·.2)

/-- A diagnostic of a program names the line that holds its significant line `k`, or for
none of them the line past the last. -/
def Diagnostic.LiesOn (d : Diagnostic) (lines : List Text) : Option Nat → Prop
  | some k => (places lines)[k]? = some d.line
  | none => d = ⟨.unclosedScope, lines.length + 1⟩

theorem length_places (lines : List Text) :
    (places lines).length = (significant lines).length := by
  rw [places]
  generalize 1 = n
  induction lines generalizing n with
  | nil => rfl
  | cons raw lines ih =>
      rw [significant, List.zipIdx_cons, List.filter_cons, List.filterMap_cons]
      cases isSkippable raw <;> simpa [significant] using ih (n + 1)

/-- A line that says something stands among the significant lines after those of the lines
before it, and has its place there. -/
theorem getElem?_significant {lines : List Text} {k : Nat} {raw : Text}
    (hk : lines[k]? = some raw) (hs : isSkippable raw = false) :
    (significant lines)[(significant (lines.take k)).length]? = some (trim raw) ∧
      (significant lines).take (significant (lines.take k)).length = significant (lines.take k) ∧
      (places lines)[(significant (lines.take k)).length]? = some (k + 1) := by
  obtain ⟨hlt, rfl⟩ := List.getElem?_eq_some_iff.mp hk
  have hsplit : lines.take k ++ lines[k] :: lines.drop (k + 1) = lines := by
    rw [← List.drop_eq_getElem_cons hlt, List.take_append_drop]
  have hsig : significant lines =
      significant (lines.take k) ++ trim lines[k] :: significant (lines.drop (k + 1)) := by
    rw [← significant_cons hs, ← significant_append, hsplit]
  have hplaces : ∃ rest, places lines = places (lines.take k) ++ (k + 1) :: rest := by
    have hlen : 1 + (lines.take k).length = k + 1 := by
      rw [List.length_take]
      omega
    refine ⟨(((lines.drop (k + 1)).zipIdx (k + 2)).filter fun p => !isSkippable p.1).map (·.2), ?_⟩
    conv_lhs => rw [← hsplit]
    rw [places, List.zipIdx_append, List.filter_append, List.map_append, List.zipIdx_cons,
      List.filter_cons_of_pos (by simp [hs]), List.map_cons, hlen]
    rfl
  obtain ⟨rest, hrest⟩ := hplaces
  refine ⟨by rw [hsig]; simp, by rw [hsig]; simp, ?_⟩
  rw [hrest, ← length_places]
  simp

namespace Verifier

/-- A fault is found where the significant lines say. -/
theorem Finding.verdict {lines : List Text} {d : Diagnostic} (h : Finding lines d) :
    ∃ place, Progress.verdict (significant lines) = some (d.fault, place) ∧
      d.LiesOn lines place := by
  have hsurvey (hall : (surveyTo lines lines.length).failure = none) :
      Outcome.each Progress.survey Progress.start (significant lines) =
        .ok (surveyed lines).progress :=
    Outcome.result?_eq_some_iff_eq_ok.mp (result?_surveyTo hall)
  cases h with
  | @survey _ k raw hk hs hd hpre hstep =>
      obtain ⟨hget, htake, hplace⟩ := getElem?_significant hk hs
      have hview := view_surveyTo lines k
      rw [← htake] at hview
      have hfirst := Outcome.firstFailure_of_take Progress.survey Progress.start
        hget (by rw [← hview, Outcome.failure_view, hpre]; rfl)
        (by rw [← hview, Outcome.state_view]; exact hstep)
      exact ⟨some _, by rw [Progress.verdict, hfirst], by rw [Diagnostic.LiesOn, hplace, hd]⟩
  | unclosed hall hn =>
      have hrun := hsurvey hall
      have hfirst := Outcome.firstFailure_of_failure_each (congrArg Outcome.failure hrun)
      refine ⟨none, ?_, rfl⟩
      simp only [Progress.verdict, hfirst, hrun]
      exact if_pos hn
  | @inspection _ k raw hok hk hs hd hpre hstep =>
      obtain ⟨hall, hn⟩ := (failure_survey_iff lines).mp hok
      have hrun := hsurvey hall
      have hnone := Outcome.firstFailure_of_failure_each (congrArg Outcome.failure hrun)
      obtain ⟨hget, htake, hplace⟩ := getElem?_significant hk hs
      have hview := view_inspectionTo lines k
      rw [← htake, hn] at hview
      have hfirst := Outcome.firstFailure_of_take Progress.inspect
        ⟨(surveyed lines).env, 0, false⟩
        hget (by rw [← hview, Outcome.failure_view, hpre]; rfl)
        (by rw [← hview, Outcome.state_view]; exact hstep)
      refine ⟨some _, ?_, by rw [Diagnostic.LiesOn, hplace, hd]⟩
      simp only [Progress.verdict, hnone, hrun]
      exact (if_neg (not_not_intro hn)).trans (congrArg (Option.map _) hfirst)

end Verifier

/-! ## Programs that differ in layout -/

/-- The verifier accepts both programs or neither, and finds the same fault in both: on the
same of their significant lines, which each reports by its own number, or past the last
line of each. -/
structure SameFindings (as bs : List Text) : Prop where
  accepted : verify as = none ↔ verify bs = none
  found : ∀ d d', verify as = some d → verify bs = some d' →
    d.fault = d'.fault ∧
      ((∃ k : Nat, (places as)[k]? = some d.line ∧ (places bs)[k]? = some d'.line) ∨
        d.fault = .unclosedScope ∧ d.line = as.length + 1 ∧ d'.line = bs.length + 1)

theorem sameFindings_of_significant {as bs : List Text} (h : significant as = significant bs) :
    SameFindings as bs := by
  refine ⟨by rw [verify_eq_none_iff, verify_eq_none_iff, h], fun d d' hd hd' => ?_⟩
  obtain ⟨place, hv, hon⟩ := (finding_of_verify hd).verdict
  obtain ⟨place', hv', hon'⟩ := (finding_of_verify hd').verdict
  rw [h, hv'] at hv
  obtain ⟨hf, hp⟩ := Prod.mk.inj (Option.some.inj hv)
  subst hp
  refine ⟨hf.symm, ?_⟩
  cases place' with
  | some k => exact Or.inl ⟨k, hon, hon'⟩
  | none =>
      obtain rfl : d = ⟨.unclosedScope, as.length + 1⟩ := hon
      obtain rfl : d' = ⟨.unclosedScope, bs.length + 1⟩ := hon'
      exact Or.inr ⟨rfl, rfl, rfl⟩

theorem significant_insert {raw : Text} (h : isSkippable raw) (as bs : List Text) :
    significant (as ++ raw :: bs) = significant (as ++ bs) := by
  rw [significant_append, significant_append]
  simp [significant, h]

/-- Indentation makes no line skippable.  It can make a comment illegal, but a comment in the
first column is skippable itself. -/
theorem isSkippable_indent {gap raw : Text} (hg : isBlankText gap) (h : isSkippable raw = false) :
    isSkippable (gap ++ raw) = false := by
  obtain ⟨hb, hc⟩ := Bool.or_eq_false_iff.mp h
  refine Bool.or_eq_false_iff.mpr ⟨?_, ?_⟩
  · rw [isBlankText, List.all_append]
    exact Bool.and_eq_false_imp.mpr fun _ => hb
  · cases gap with
    | nil => exact hc
    | cons c gap =>
        have hc' : isBlank c := (List.all_eq_true.mp hg) c List.mem_cons_self
        have hne : '/' ≠ c := by
          rintro rfl
          exact absurd hc' (by decide)
        simp [isComment, after?, hne]

theorem significant_indent {gap raw : Text} (hg : isBlankText gap) (h : isSkippable raw = false)
    (as bs : List Text) :
    significant (as ++ (gap ++ raw) :: bs) = significant (as ++ raw :: bs) := by
  rw [significant_append, significant_append, significant_cons h,
    significant_cons (isSkippable_indent hg h), trim_indent hg]

/-! ## Line endings -/

/-- Line by line, the two programs hold the same apart from white space. -/
def Alike (as bs : List Text) : Prop :=
  List.Forall₂ (fun a b => isSkippable b = isSkippable a ∧ trim b = trim a) as bs

theorem Alike.significant_eq {as bs : List Text} (h : Alike as bs) :
    significant bs = significant as := by
  induction h with
  | nil => rfl
  | cons hab _ ih =>
      simp only [significant] at ih ⊢
      rw [List.filterMap_cons, List.filterMap_cons, hab.1, hab.2, ih]

theorem Alike.places_eq {as bs : List Text} (h : Alike as bs) : places bs = places as := by
  rw [places, places]
  generalize 1 = n
  induction h generalizing n with
  | nil => rfl
  | cons hab _ ih =>
      rw [List.zipIdx_cons, List.zipIdx_cons, List.filter_cons, List.filter_cons, hab.1]
      split
      · rw [List.map_cons, List.map_cons, ih]
      · exact ih (n + 1)

/-- Where lines differ in white space only, a fault has the same number as well. -/
theorem Alike.verify_eq {as bs : List Text} (h : Alike as bs) : verify bs = verify as := by
  have hsame := sameFindings_of_significant h.significant_eq
  cases hb : verify bs with
  | none => exact (hsame.accepted.mp hb).symm
  | some d =>
      cases ha : verify as with
      | none => exact absurd (hsame.accepted.mpr ha) (by simp [hb])
      | some d' =>
          obtain ⟨hf, hline⟩ := hsame.found d d' hb ha
          have hn : d.line = d'.line := by
            rcases hline with ⟨k, hk, hk'⟩ | ⟨_, hk, hk'⟩
            · rw [h.places_eq, hk'] at hk
              exact (Option.some.inj hk).symm
            · rw [hk, hk', List.Forall₂.length_eq h]
          cases d
          cases d'
          simp only at hf hn
          rw [hf, hn]

namespace Text

/-- The text with a carriage return put before every line feed. -/
def withReturns (s : Text) : Text := s.flatMap fun c => if c = '\n' then ['\r', '\n'] else [c]

theorem withReturns_cons_lineFeed (s : Text) :
    withReturns ('\n' :: s) = '\r' :: '\n' :: withReturns s := rfl

theorem withReturns_cons {c : Char} (hc : c ≠ '\n') (s : Text) :
    withReturns (c :: s) = c :: withReturns s := by
  simp [withReturns, hc]

theorem head?_withReturns (s : Text) : (withReturns s).head? ≠ some '\n' := by
  cases s with
  | nil => simp [withReturns]
  | cons c s =>
      by_cases hc : c = '\n'
      · subst hc
        rw [withReturns_cons_lineFeed]
        simp
      · rw [withReturns_cons hc]
        simpa using hc

/-- A line may gain a carriage return at its end, and is otherwise kept. -/
def MayGainReturn (l l' : Text) : Prop := l' = l ∨ l' = l ++ ['\r']

theorem forall₂_consFirst {ls ls' : List Text} (h : List.Forall₂ MayGainReturn ls ls') (c : Char) :
    List.Forall₂ MayGainReturn (consFirst c ls) (consFirst c ls') := by
  cases h with
  | nil => exact .cons (Or.inl rfl) .nil
  | cons hl hls =>
      refine .cons ?_ hls
      rcases hl with rfl | rfl
      · exact Or.inl rfl
      · exact Or.inr rfl

/-- A carriage return that stands before a line feed already is part of the line once there
is another behind it. -/
theorem forall₂_lines_withReturns (s : Text) :
    List.Forall₂ MayGainReturn (lines s) (lines (withReturns s)) := by
  fun_induction lines s with
  | case1 => exact .nil
  | case2 s ih =>
      rw [withReturns_cons_lineFeed, lines_cons_return_lineFeed]
      exact .cons (Or.inl rfl) ih
  | case3 s ih =>
      rw [withReturns_cons (by decide), withReturns_cons_lineFeed,
        lines_cons (by decide) (by simp), lines_cons_return_lineFeed]
      exact .cons (Or.inr rfl) ih
  | case4 c s hn hrn ih =>
      rw [withReturns_cons hn, lines_cons hn fun _ => head?_withReturns s]
      exact forall₂_consFirst ih c

end Text

theorem isComment_concat_return (l : Text) : isComment (l ++ ['\r']) = isComment l := by
  have hiff (s : Text) : isComment s ↔ ['/', '/'] <+: s := by
    rw [isComment, Option.isSome_iff_exists]
    exact exists_congr fun r => after?_eq_some_iff.trans eq_comm
  rw [Bool.eq_iff_iff, hiff, hiff, List.prefix_concat_iff]
  refine or_iff_right fun h => ?_
  have hlast := congrArg List.getLast? h
  simp at hlast

theorem alike_of_mayGainReturn {ls ls' : List Text} (h : List.Forall₂ MayGainReturn ls ls') :
    Alike ls ls' := by
  refine h.imp fun l l' hl => ?_
  rcases hl with rfl | rfl
  · exact ⟨rfl, rfl⟩
  have hr : isBlankText ['\r'] := by decide
  constructor
  · rw [isSkippable, isSkippable, isComment_concat_return, isBlankText, List.all_append]
    rw [show ['\r'].all isBlank = true from hr, Bool.and_true]
    rfl
  · exact trim_append hr l

/-- Programs with the same significant lines are judged alike.  So blank lines and comments
can be put in anywhere and lines that say something can be indented; and a source is judged
the same, down to the number of the line, when its lines end in a carriage return and a line
feed. -/
theorem verify_ignores_layout :
    (∀ as bs, significant as = significant bs → SameFindings as bs) ∧
    (∀ as raw bs, isSkippable raw → SameFindings (as ++ raw :: bs) (as ++ bs)) ∧
    (∀ as gap raw bs, isBlankText gap → isSkippable raw = false →
      SameFindings (as ++ (gap ++ raw) :: bs) (as ++ raw :: bs)) ∧
    ∀ source, verifySource (withReturns source) = verifySource source := by
  refine ⟨fun as bs h => sameFindings_of_significant h, fun as raw bs h => ?_,
    fun as gap raw bs hg h => ?_, fun source => ?_⟩
  · exact sameFindings_of_significant (significant_insert h as bs)
  · exact sameFindings_of_significant (significant_indent hg h as bs)
  · exact (alike_of_mayGainReturn (forall₂_lines_withReturns source)).verify_eq

/-- A method that calls itself with a name it does not know. -/
def sampleDense : List Text :=
  ["void f(int a) \x7b".toList, "f(b);".toList, "return;".toList, "\x7d".toList]

/-- The same method with comments, blank lines and indentation. -/
def sampleLoose : List Text :=
  ["// a method".toList, "void f(int a) \x7b".toList, "".toList, "  f(b);  ".toList,
    "  return;".toList, "// the end".toList, "\t".toList, "\x7d".toList]

theorem sampleLoose_is_judged_alike :
    significant sampleDense = significant sampleLoose ∧
      verify sampleDense = some ⟨.variableNotDeclared "b".toList, 2⟩ ∧
      verify sampleLoose = some ⟨.variableNotDeclared "b".toList, 4⟩ ∧
      SameFindings sampleDense sampleLoose :=
  ⟨by decide +kernel, by decide +kernel, by decide +kernel,
    verify_ignores_layout.1 _ _ (by decide +kernel)⟩

end SJava
