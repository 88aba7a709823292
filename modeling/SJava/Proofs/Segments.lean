/-
Programs in segments.

A segment is a global line, a whole method, or a line that says nothing, as they stand in a
file: lines with white space around them, and bodies with any lines at all, as long as the
blocks they open and close are their own.  The survey takes no notice of a body, so it goes
over the segments of a program as over a program whose methods have no bodies
(`Segment.skeleton`).  The inspection of a segment ends where it began.  So a program of
segments is accepted if the skeletons make an environment and each segment is accepted in
it (`verify_linesOf_eq_none_iff`).
-/
import Mathlib.Data.List.Infix
import SJava.Proofs.Acceptance

namespace SJava

open Text Outcome

/-! ## Segments -/

/-- A line as it stands in a program, whose category is that of the line without the white
space around it. -/
structure Written (c : Category) where
  raw : Text
  of_trim : Category.of (trim raw) = c
  deriving DecidableEq

/-- The lines close every block that they open, and no other. -/
def WellNested (lines : List Text) : Prop :=
  blockChange (significant lines) = 0 ∧
    ∀ front ∈ (significant lines).inits, 0 ≤ blockChange front

instance (lines : List Text) : Decidable (WellNested lines) :=
  inferInstanceAs (Decidable (_ ∧ _))

/-- The lines between the header of a method and the line that closes it. -/
structure Body where
  lines : List Text
  wellNested : WellNested lines
  deriving DecidableEq

inductive Segment where
  | remark (line : Text) (skippable : isSkippable line)
  | declaration (line : Written .variableDeclaration)
  | assignment (line : Written .variableAssignment)
  | method (header : Written .methodDeclaration) (body : Body) (close : Written .blockEnd)
  deriving DecidableEq

def Written.line {c : Category} (w : Written c) : Line c := ⟨trim w.raw, trim_trim w.raw, w.of_trim⟩

namespace Segment

def isMethod : Segment → Bool
  | method _ _ _ => true
  | _ => false

def lines : Segment → List Text
  | remark line _ => [line]
  | declaration line => [line.raw]
  | assignment line => [line.raw]
  | method header body close => header.raw :: (body.lines ++ [close.raw])

def linesOf (segments : List Segment) : List Text := segments.flatMap lines

/-- What a segment means to the others. -/
def skeleton : Segment → List Item
  | remark _ _ => []
  | declaration line => [.declaration line.line]
  | assignment line => [.assignment line.line]
  | method header _ _ => [.method header.line []]

/-- The inspection accepts the segment, when it knows what `e` knows. -/
def Legal (e : Env) (s : Segment) : Prop :=
  (each Progress.inspect ⟨e, 0, false⟩ (significant s.lines)).result?.isSome

end Segment

/-! ## Significant lines -/

theorem significant_append (as bs : List Text) :
    significant (as ++ bs) = significant as ++ significant bs :=
  List.filterMap_append

theorem isSkippable_eq_false_of_firstMark {raw : Text} {a : Char} (h : firstMark raw = some a)
    (ha : a ≠ '/') : isSkippable raw = false := by
  rw [isSkippable, Bool.or_eq_false_iff]
  constructor
  · cases hb : isBlankText raw with
    | false => rfl
    | true =>
        rw [firstMark_of_isBlankText hb] at h
        exact absurd h (by simp)
  · cases hs : isComment raw with
    | false => rfl
    | true =>
        obtain ⟨r, hr⟩ := Option.isSome_iff_exists.mp hs
        rw [firstMark_of_after? (by decide) hr] at h
        exact absurd (Option.some.inj h).symm ha

theorem isSkippable_eq_false_of_trim {raw : Text} {c : Category} (h : Category.of (trim raw) = c)
    (hc : c ≠ .illegalComment) (hu : c ≠ .unknown) : isSkippable raw = false := by
  have hslash := Category.firstMark_of_admits (Category.admits_of_of_eq h hc hu)
  rw [firstMark_trim] at hslash
  cases hf : firstMark raw with
  | none =>
      have hskip := Line.isSkippable_eq_false ⟨trim raw, trim_trim raw, h⟩ hc hu
      rw [isSkippable, Bool.or_eq_false_iff] at hskip
      rw [← firstMark_trim, firstMark, List.find?_eq_none] at hf
      have hblank : isBlankText (trim raw) = true :=
        List.all_eq_true.mpr fun a ha => by simpa using hf a ha
      rw [hskip.1] at hblank
      exact absurd hblank (by decide)
  | some a => exact isSkippable_eq_false_of_firstMark hf fun ha => hslash (ha ▸ hf)

theorem significant_cons {raw : Text} (h : isSkippable raw = false) (lines : List Text) :
    significant (raw :: lines) = trim raw :: significant lines :=
  List.filterMap_cons_some (by simp [h])

theorem Written.significant_cons {c : Category} (w : Written c) (hc : c ≠ .illegalComment)
    (hu : c ≠ .unknown) (lines : List Text) :
    significant (w.raw :: lines) = w.line.text :: significant lines :=
  SJava.significant_cons (isSkippable_eq_false_of_trim w.of_trim hc hu) lines

theorem Written.line_text_eq_closing (w : Written .blockEnd) : w.line.text = closing :=
  eq_closing w.line.trim_text w.line.of_text

theorem Segment.significant_remark {line : Text} (h : isSkippable line) :
    significant (remark line h).lines = [] :=
  List.filterMap_cons_none (by simp [h])

theorem Segment.significant_method (header : Written .methodDeclaration) (body : Body)
    (close : Written .blockEnd) :
    significant (method header body close).lines =
      header.line.text :: (significant body.lines ++ [closing]) := by
  rw [lines, header.significant_cons (by decide) (by decide), significant_append,
    close.significant_cons (by decide) (by decide), close.line_text_eq_closing]
  rfl

theorem Segment.significant_linesOf (segments : List Segment) :
    significant (linesOf segments) = segments.flatMap fun s => significant s.lines := by
  induction segments with
  | nil => rfl
  | cons s segments ih =>
      rw [linesOf, List.flatMap_cons, significant_append, List.flatMap_cons]
      exact congrArg _ ih

/-! ## Counts of blocks -/

theorem blockChange_cons (line : Text) (lines : List Text) :
    blockChange (line :: lines) = (Category.of line).change + blockChange lines := rfl

theorem blockChange_append (as bs : List Text) :
    blockChange (as ++ bs) = blockChange as + blockChange bs := by
  induction as with
  | nil => simp [blockChange]
  | cons a as ih =>
      rw [List.cons_append, blockChange_cons, blockChange_cons, ih]
      omega

theorem Segment.blockChange_lines (s : Segment) : blockChange (significant s.lines) = 0 := by
  cases s with
  | remark line h =>
      rw [significant_remark]
      rfl
  | declaration line | assignment line =>
      rw [lines, line.significant_cons (by decide) (by decide), blockChange_cons,
        line.line.of_text]
      rfl
  | method header body close =>
      rw [significant_method, blockChange_cons, blockChange_append, body.wellNested.1,
        blockChange_cons, header.line.of_text, of_closing]
      rfl

/-! ## Survey -/

namespace Progress

/-- As long as a block is open the survey does nothing but count. -/
theorem result?_survey_of_open {ls : List Text} {e : Env} {n : Int} {r : Bool}
    (h : ∀ front, front <+: ls → 0 < n + blockChange front) :
    (each survey ⟨e, n, r⟩ ls).result? = some ⟨e, n + blockChange ls, r⟩ := by
  induction ls generalizing n with
  | nil => simp [blockChange]
  | cons l ls ih =>
      have hn : n ≠ 0 := by
        have := h [] List.nil_prefix
        simp only [blockChange, List.foldr_nil] at this
        omega
      have hrest : ∀ front, front <+: ls → 0 < n + (Category.of l).change + blockChange front := by
        intro front hfront
        have := h (l :: front) (List.cons_prefix_cons.mpr ⟨rfl, hfront⟩)
        rw [blockChange_cons] at this
        omega
      rw [result?_each_cons, result?_survey_of_ne hn, Option.bind_some, ih hrest,
        blockChange_cons, Int.add_assoc]

end Progress

namespace Segment

open Progress

/-- The survey passes over the body of a method. -/
theorem result?_survey_lines (s : Segment) (e : Env) (r : Bool) :
    (each survey ⟨e, 0, r⟩ (significant s.lines)).result? =
      (each survey ⟨e, 0, r⟩ (s.skeleton.flatMap Item.lines)).result? := by
  cases s with
  | remark line h =>
      rw [significant_remark]
      rfl
  | declaration line | assignment line =>
      rw [lines, line.significant_cons (by decide) (by decide)]
      rfl
  | method header body close =>
      have hbody (t : Env) : (each survey ⟨t, 1, r⟩ (significant body.lines)).result? =
          some ⟨t, 1, r⟩ := by
        rw [result?_survey_of_open fun front hfront => ?_, body.wellNested.1]
        · rfl
        · have := body.wellNested.2 front (List.mem_inits front _ |>.mpr hfront)
          omega
      rw [significant_method, skeleton, List.flatMap_singleton, Item.lines, result?_each_cons,
        result?_each_cons, result?_survey, header.line.of_text]
      cases (if (0 : Int) = 0 then (e.surveyLine header.line.text).result? else some e) with
      | none => rfl
      | some t =>
          simp only [Option.map_some, Option.bind_some, Category.change]
          rw [result?_each_append]
          show ((each survey ⟨t, 1, r⟩ (significant body.lines)).result?.bind _) = _
          rw [hbody]
          rfl

theorem exists_of_survey_skeleton {s : Segment} {e : Env} {r : Bool} {p : Progress}
    (h : (each survey ⟨e, 0, r⟩ (s.skeleton.flatMap Item.lines)).result? = some p) :
    ∃ t, p = ⟨t, 0, r⟩ := by
  cases s with
  | remark line _ => exact ⟨e, (Option.some.inj h).symm⟩
  | declaration line | assignment line =>
      rw [skeleton, List.flatMap_singleton, Item.result?_survey_of_header?_eq_none rfl] at h
      obtain ⟨t, _, rfl⟩ := Option.map_eq_some_iff.mp h
      exact ⟨t, rfl⟩
  | method header body close =>
      rw [skeleton, List.flatMap_singleton, Item.result?_survey_method] at h
      obtain ⟨t, _, rfl⟩ := Option.map_eq_some_iff.mp h
      exact ⟨t, rfl⟩

theorem result?_survey_linesOf (segments : List Segment) (e : Env) (r : Bool) :
    (each survey ⟨e, 0, r⟩ (significant (linesOf segments))).result? =
      (each survey ⟨e, 0, r⟩ ((segments.flatMap skeleton).flatMap Item.lines)).result? := by
  rw [significant_linesOf]
  induction segments generalizing e with
  | nil => rfl
  | cons s segments ih =>
      rw [List.flatMap_cons, List.flatMap_cons, List.flatMap_append, result?_each_append,
        result?_each_append, result?_survey_lines]
      cases h : (each survey ⟨e, 0, r⟩ (s.skeleton.flatMap Item.lines)).result? with
      | none => rfl
      | some p =>
          obtain ⟨t, rfl⟩ := exists_of_survey_skeleton h
          exact ih t

/-! ## Inspection -/

/-- The inspection of a segment ends where it began. -/
theorem eq_of_result?_inspect {e : Env} (he : e.AtTop) {s : Segment} {q : Progress}
    (h : (each inspect ⟨e, 0, false⟩ (significant s.lines)).result? = some q) :
    q = ⟨e, 0, false⟩ := by
  have hlen := length_each_inspect (p := ⟨e, 0, false⟩) he.allGlobal h
  rw [s.blockChange_lines, he.locals, List.length_nil] at hlen
  exact eq_of_each_inspect he h (List.length_eq_zero_iff.mp (by omega))

theorem isSome_inspect_linesOf_iff {e : Env} (he : e.AtTop) (segments : List Segment) :
    (each inspect ⟨e, 0, false⟩ (significant (linesOf segments))).result?.isSome ↔
      ∀ s ∈ segments, s.Legal e := by
  rw [significant_linesOf]
  induction segments with
  | nil => simp
  | cons s segments ih =>
      rw [List.flatMap_cons, result?_each_append, List.forall_mem_cons, Legal]
      cases h : (each inspect ⟨e, 0, false⟩ (significant s.lines)).result? with
      | none => simp
      | some q =>
          obtain rfl := eq_of_result?_inspect he h
          simpa using ih

end Segment

/-- A program of segments is accepted if its global lines and its headers are, and each of
its segments is in the environment that they make. -/
theorem verify_linesOf_eq_none_iff (segments : List Segment) :
    verify (Segment.linesOf segments) = none ↔
      ∃ e, (⟨segments.flatMap Segment.skeleton⟩ : Program).environment? = some e ∧
        ∀ s ∈ segments, s.Legal e := by
  have hsurvey := Program.result?_survey ⟨segments.flatMap Segment.skeleton⟩
  rw [verify_eq_none_iff, Progress.Accepts, Progress.start, Segment.result?_survey_linesOf]
  rw [Progress.start, Program.lines] at hsurvey
  rw [hsurvey]
  cases he : (⟨segments.flatMap Segment.skeleton⟩ : Program).environment? with
  | none => simp
  | some e =>
      have htop := (Program.known_of_environment? he).1
      have hlegal := Segment.isSome_inspect_linesOf_iff htop segments
      simp only [Option.map_some, Option.some.injEq, exists_eq_left', true_and]
      exact hlegal

end SJava
