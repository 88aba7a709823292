/-
The verifier accepts the lines of legal programs and nothing else.

A run over lines is accepted if the survey ends outside every block and the inspection ends
at all (`Progress.Accepts`).  For the lines of a tree this is `Program.isLegal`.  What is
left is to find the tree of lines that are accepted.  An accepted line moves the number of
open blocks as its category says, so lines that lead out of a block begin with the
statements of its body and the line that closes it.
-/
import SJava.Proofs.Clauses
import SJava.Proofs.Structure

namespace SJava

open Text

theorem trim_of_mem_significant {lines : List Text} {line : Text} (h : line ∈ significant lines) :
    trim line = line := by
  obtain ⟨raw, _, hraw⟩ := List.mem_filterMap.mp h
  split at hraw
  · simp at hraw
  · obtain rfl := Option.some.inj hraw
    exact trim_trim raw

theorem eq_closing {line : Text} (ht : trim line = line) (hc : Category.of line = .blockEnd) :
    line = closing := by
  have h : isBlockEnd line = true := Category.admits_of_of_eq hc (by decide) (by decide)
  rw [isBlockEnd, ht] at h
  exact beq_iff_eq.mp h

/-! ## The tree of accepted lines -/

namespace Progress

open Outcome

/-- Lines that lead out of a block begin with its body and its end. -/
theorem exists_linesOf {ls : List Text} (ht : ∀ l ∈ ls, trim l = l) {p q : Progress}
    (hg : p.env.globals.AllGlobal) (h : (each inspect p ls).result? = some q)
    (hlt : q.env.locals.length < p.env.locals.length) :
    ∃ body rest t, ls = Statement.linesOf body ++ closing :: rest ∧
      (each inspect t rest).result? = some q ∧ t.env.globals.AllGlobal ∧
      t.env.locals.length + 1 = p.env.locals.length := by
  -- The body of an inner block is followed by what is left of the outer one, so the
  -- induction is on the number of lines and not on the list.
  induction hn : ls.length using Nat.strongRecOn generalizing ls p with
  | ind n ih =>
  cases ls with
  | nil =>
      obtain rfl : p = q := Option.some.inj h
      exact absurd hlt (Nat.lt_irrefl _)
  | cons l ls =>
      obtain ⟨p₁, hmoves, hg₁, h⟩ := exists_of_each_inspect_cons hg h
      have hl := ht l List.mem_cons_self
      have ht' : ∀ l ∈ ls, trim l = l := fun l' h' => ht l' (List.mem_cons_of_mem _ h')
      rw [List.length_cons] at hn
      have hstatement (s : Statement) (hs : s.lines = [l])
          (hlen : p₁.env.locals.length = p.env.locals.length) :
          ∃ body rest t, l :: ls = Statement.linesOf body ++ closing :: rest ∧
            (each inspect t rest).result? = some q ∧ t.env.globals.AllGlobal ∧
            t.env.locals.length + 1 = p.env.locals.length := by
        obtain ⟨body, rest, t, rfl, hrest, hgt, hlt'⟩ :=
          ih ls.length (by omega) ht' hg₁ h (by omega) rfl
        exact ⟨s :: body, rest, t, by rw [Statement.linesOf, hs]; rfl, hrest, hgt, by omega⟩
      cases hc : Category.of l with
      | illegalComment | unknown =>
          rw [hc] at hmoves
          exact hmoves.elim
      | methodDeclaration =>
          rw [hc] at hmoves
          have := hmoves.1
          omega
      | variableDeclaration =>
          rw [hc] at hmoves
          exact hstatement (.declaration ⟨l, hl, hc⟩) rfl hmoves
      | variableAssignment =>
          rw [hc] at hmoves
          exact hstatement (.assignment ⟨l, hl, hc⟩) rfl hmoves
      | methodCall =>
          rw [hc] at hmoves
          exact hstatement (.call ⟨l, hl, hc⟩) rfl hmoves.2
      | returnStatement =>
          rw [hc] at hmoves
          exact hstatement (.leave ⟨l, hl, hc⟩) rfl hmoves.2
      | blockEnd =>
          rw [hc] at hmoves
          have hlen : p.env.locals.length = p₁.env.locals.length + 1 := hmoves
          exact ⟨[], ls, p₁, by rw [eq_closing hl hc]; rfl, h, hg₁, hlen.symm⟩
      | conditionalBlockStart =>
          rw [hc] at hmoves
          have hlen : p₁.env.locals.length = p.env.locals.length + 1 := hmoves.2
          obtain ⟨inner, rest₁, t₁, rfl, hrest₁, hgt₁, hlt₁⟩ :=
            ih ls.length (by omega) ht' hg₁ h (by omega) rfl
          have ht₁ : ∀ l ∈ rest₁, trim l = l := fun l' h' =>
            ht' l' (List.mem_append_right _ (List.mem_cons_of_mem _ h'))
          simp only [List.length_append, List.length_cons] at hn
          obtain ⟨body, rest, t, rfl, hrest, hgt, hlt'⟩ :=
            ih rest₁.length (by omega) ht₁ hgt₁ hrest₁ (by omega) rfl
          refine ⟨.block ⟨l, hl, hc⟩ inner :: body, rest, t, ?_, hrest, hgt, by omega⟩
          simp [Statement.linesOf, Statement.lines]

/-- Lines that lead from outside every block to outside every block are those of items. -/
theorem exists_items {ls : List Text} (ht : ∀ l ∈ ls, trim l = l) {p q : Progress}
    (hg : p.env.globals.AllGlobal) (h : (each inspect p ls).result? = some q)
    (hp : p.env.locals.length = 0) (hq : q.env.locals.length = 0) :
    ∃ items : List Item, items.flatMap Item.lines = ls := by
  induction hn : ls.length using Nat.strongRecOn generalizing ls p with
  | ind n ih =>
  cases ls with
  | nil => exact ⟨[], rfl⟩
  | cons l ls =>
      obtain ⟨p₁, hmoves, hg₁, h⟩ := exists_of_each_inspect_cons hg h
      have hl := ht l List.mem_cons_self
      have ht' : ∀ l ∈ ls, trim l = l := fun l' h' => ht l' (List.mem_cons_of_mem _ h')
      rw [List.length_cons] at hn
      have hline (item : Item) (hi : item.lines = [l]) (hlen : p₁.env.locals.length = 0) :
          ∃ items : List Item, items.flatMap Item.lines = l :: ls := by
        obtain ⟨items, rfl⟩ := ih ls.length (by omega) ht' hg₁ h hlen rfl
        exact ⟨item :: items, by rw [List.flatMap_cons, hi]; rfl⟩
      cases hc : Category.of l with
      | illegalComment | unknown =>
          rw [hc] at hmoves
          exact hmoves.elim
      | variableDeclaration =>
          rw [hc] at hmoves
          exact hline (.declaration ⟨l, hl, hc⟩) rfl (hmoves.trans hp)
      | variableAssignment =>
          rw [hc] at hmoves
          exact hline (.assignment ⟨l, hl, hc⟩) rfl (hmoves.trans hp)
      | methodCall | returnStatement | conditionalBlockStart =>
          rw [hc] at hmoves
          have := hmoves.1
          omega
      | blockEnd =>
          rw [hc] at hmoves
          have hlen : p.env.locals.length = p₁.env.locals.length + 1 := hmoves
          omega
      | methodDeclaration =>
          rw [hc] at hmoves
          have hlen : p₁.env.locals.length = 1 := hmoves.2
          obtain ⟨body, rest, t, rfl, hrest, hgt, hlt⟩ := exists_linesOf ht' hg₁ h (by omega)
          have htr : ∀ l ∈ rest, trim l = l := fun l' h' =>
            ht' l' (List.mem_append_right _ (List.mem_cons_of_mem _ h'))
          simp only [List.length_append, List.length_cons] at hn
          obtain ⟨items, rfl⟩ := ih rest.length (by omega) htr hgt hrest (by omega) rfl
          exact ⟨.method ⟨l, hl, hc⟩ body :: items, by simp [Item.lines]⟩

end Progress

/-! ## Acceptance -/

open Outcome Verifier

/-- Both walks over significant lines accept them. -/
def Progress.Accepts (ls : List Text) : Prop :=
  ∃ p, (each Progress.survey Progress.start ls).result? = some p ∧ p.nesting = 0 ∧
    (each Progress.inspect ⟨p.env, 0, false⟩ ls).result?.isSome

theorem Verifier.result?_surveyTo {lines : List Text}
    (h : (surveyTo lines lines.length).failure = none) :
    (each Progress.survey Progress.start (significant lines)).result? =
      some (surveyed lines).progress := by
  have hview := view_surveyTo lines lines.length
  rw [List.take_length] at hview
  rw [← hview, result?_view, failure_eq_none_iff.mp h, surveyed_eq]
  rfl

theorem Verifier.failure_inspectionTo {lines : List Text} (hn : (surveyed lines).nesting = 0) :
    (inspectionTo lines lines.length).failure = none ↔
      (each Progress.inspect ⟨(surveyed lines).env, 0, false⟩
        (significant lines)).result?.isSome := by
  have hview := view_inspectionTo lines lines.length
  rw [List.take_length, hn] at hview
  rw [← hview, result?_view, Option.isSome_map, isSome_result?_iff]

theorem Verifier.failure_survey_iff (lines : List Text) :
    (start.survey lines).failure = none ↔
      (surveyTo lines lines.length).failure = none ∧ (surveyed lines).nesting = 0 := by
  constructor
  · intro h
    exact ⟨(surveyTo_of_survey h).1 lines.length, (surveyTo_of_survey h).2⟩
  · rintro ⟨h, hn⟩
    have hg := Env.isGlobal_eq_true (atTop_surveyed lines).locals
    rw [surveyed_eq] at hn hg
    rw [surveyTo, List.take_length] at h hn hg
    rw [survey, failure_andThen_eq_none]
    refine ⟨h, ?_⟩
    show (checkClosed lines.length (each surveyLine start lines).state).failure = none
    simp [checkClosed, hn, hg, ok]

theorem verify_eq_none_iff (lines : List Text) :
    verify lines = none ↔ Progress.Accepts (significant lines) := by
  constructor
  · intro h
    have hs : (start.survey lines).failure = none := (failure_andThen_eq_none.mp h).1
    obtain ⟨hto, hn⟩ := (failure_survey_iff lines).mp hs
    rw [verify, run_eq hs, failure_andThen_eq_none] at h
    exact ⟨_, result?_surveyTo hto, hn, (failure_inspectionTo hn).mp h.1⟩
  · rintro ⟨p, hp, hn, hi⟩
    have hto : (surveyTo lines lines.length).failure = none := by
      have hview := congrArg Outcome.result? (view_surveyTo lines lines.length)
      rw [List.take_length, hp, result?_view] at hview
      obtain ⟨v, hv, _⟩ := Option.map_eq_some_iff.mp hview
      exact (result?_eq_some_iff.mp hv).1
    obtain rfl : (surveyed lines).progress = p :=
      Option.some.inj ((result?_surveyTo hto).symm.trans hp)
    have hs := (failure_survey_iff lines).mpr ⟨hto, hn⟩
    have hend := (failure_inspectionTo hn).mpr hi
    rw [verify, run_eq hs, failure_andThen_eq_none]
    exact ⟨hend, checkClosed_inspectionTo hs hend⟩

theorem Program.accepts_lines_iff (p : Program) : Progress.Accepts p.lines ↔ p.isLegal := by
  rw [Progress.Accepts, p.result?_survey, isLegal]
  cases h : p.environment? with
  | none => simp
  | some e =>
      obtain ⟨htop, hk⟩ := known_of_environment? h
      have hitems := Item.result?_inspect_items htop hk 0
      simp only [Option.map_some, Option.some.injEq, exists_eq_left', true_and, Option.any_some]
      rw [lines, hitems]
      cases p.items.all (Item.isLegal e) <;> simp

theorem Program.allSignificant_lines (p : Program) : AllSignificant p.lines := by
  intro l hl
  obtain ⟨item, _, hl⟩ := List.mem_flatMap.mp hl
  cases item with
  | declaration line | assignment line =>
      obtain rfl := List.mem_singleton.mp hl
      exact ⟨line.isSkippable_eq_false (by decide) (by decide), line.trim_text⟩
  | method header body =>
      rcases List.mem_cons.mp hl with rfl | hl
      · exact ⟨header.isSkippable_eq_false (by decide) (by decide), header.trim_text⟩
      rcases List.mem_append.mp hl with hl | hl
      · exact Statement.allSignificant_linesOf body l hl
      · obtain rfl := List.mem_singleton.mp hl
        decide

theorem exists_program_of_accepts {lines : List Text} (h : Progress.Accepts (significant lines)) :
    ∃ p : Program, p.lines = significant lines := by
  obtain ⟨s, hs, hn, hi⟩ := h
  obtain ⟨q, hq⟩ := Option.isSome_iff_exists.mp hi
  have htop : s.env.AtTop := Progress.atTop_of_survey hs
  have hzero : s.env.locals.length = 0 := by rw [htop.locals]; rfl
  have hcount := Progress.nesting_each_survey hs
  have hlen := Progress.length_each_inspect (p := ⟨s.env, 0, false⟩) htop.allGlobal hq
  simp only [Progress.start, hzero] at hcount hlen
  obtain ⟨items, hitems⟩ := Progress.exists_items (fun l => trim_of_mem_significant)
    (p := ⟨s.env, 0, false⟩) htop.allGlobal hq hzero (by omega)
  exact ⟨⟨items⟩, hitems⟩

/-- The verifier accepts exactly the lines of the legal programs, with blank lines and
comments between them, and its verdict on the lines of a program is that of `isLegal`. -/
theorem verify_accepts_exactly_legal_programs :
    (∀ lines, verify lines = none ↔ ∃ p : Program, p.lines = significant lines ∧ p.isLegal) ∧
      ∀ p : Program, significant p.lines = p.lines ∧ (verify p.lines = none ↔ p.isLegal) := by
  constructor
  · intro lines
    rw [verify_eq_none_iff]
    constructor
    · intro h
      obtain ⟨p, hp⟩ := exists_program_of_accepts h
      exact ⟨p, hp, p.accepts_lines_iff.mp (hp ▸ h)⟩
    · rintro ⟨p, hp, hl⟩
      exact hp ▸ p.accepts_lines_iff.mpr hl
  · intro p
    have hsig := significant_eq_self p.allSignificant_lines
    refine ⟨hsig, ?_⟩
    rw [verify_eq_none_iff, hsig]
    exact p.accepts_lines_iff

end SJava
