/-
The two walks over the lines of a program tree.

The walks go over lines with a counter, a stack of frames and a flag; `Program.isLegal`
recurs on a tree.  For the lines of a tree the two agree.  The survey of a method's body
changes nothing, and that of a whole program ends with `Program.environment?`.  The
inspection of a body is `Statement.checkAll`, and after each item of the program it is back
where it was before.
-/
import Mathlib.Data.List.Nodup
import SJava.Proofs.Levels
import SJava.Proofs.Program

namespace SJava

open Text

theorem of_closing : Category.of closing = .blockEnd := by decide +kernel

/-! ## Lines of trees -/

namespace Statement

mutual
theorem allSignificant_lines (s : Statement) : AllSignificant s.lines := by
  cases s with
  | declaration line | assignment line | call line | leave line =>
      intro l hl
      obtain rfl := List.mem_singleton.mp (by simpa only [lines] using hl)
      exact ⟨line.isSkippable_eq_false (by decide) (by decide), line.trim_text⟩
  | block header body =>
      intro l hl
      simp only [lines, List.mem_cons, List.mem_append, List.not_mem_nil, or_false] at hl
      rcases hl with rfl | hl | rfl
      · exact ⟨header.isSkippable_eq_false (by decide) (by decide), header.trim_text⟩
      · exact allSignificant_linesOf body l hl
      · decide

theorem allSignificant_linesOf (ss : List Statement) : AllSignificant (linesOf ss) := by
  cases ss with
  | nil => simp [AllSignificant, linesOf]
  | cons s rest =>
      intro l hl
      rw [linesOf, List.mem_append] at hl
      exact hl.elim (allSignificant_lines s l) (allSignificant_linesOf rest l)
end

/-! ## What statements keep -/

mutual
theorem sameBlocks_check (s : Statement) {e e' : Env} (he : e.locals ≠ [])
    (hg : e.globals.AllGlobal) (h : s.check e = some e') : e.SameBlocks e' := by
  cases s with
  | declaration line =>
      rw [check, Outcome.result?_eq_some_iff] at h
      rw [← h.2]
      exact e.sameBlocks_declareLine line.text
  | assignment line =>
      rw [check, Outcome.result?_eq_some_iff] at h
      rw [← h.2]
      exact Env.sameBlocks_assignLine he hg line.text
  | call line =>
      rw [check] at h
      split at h
      · obtain rfl := Option.some.inj h
        exact .refl e
      · simp at h
  | leave line =>
      rw [check] at h
      obtain rfl := Option.some.inj h
      exact .refl e
  | block header body =>
      rw [check] at h
      split at h
      · simp at h
      split at h
      · obtain ⟨t, ht, rfl⟩ := Option.map_eq_some_iff.mp h
        have hb := sameBlocks_checkAll body (e := e.push) (List.cons_ne_nil _ _) hg ht
        refine ⟨⟨hb.methods, hb.globals⟩, ?_⟩
        simp [Env.leave, hb.length, Env.push]
      · simp at h

theorem sameBlocks_checkAll (ss : List Statement) {e e' : Env} (he : e.locals ≠ [])
    (hg : e.globals.AllGlobal) (h : checkAll e ss = some e') : e.SameBlocks e' := by
  cases ss with
  | nil =>
      rw [checkAll] at h
      obtain rfl := Option.some.inj h
      exact .refl e
  | cons s rest =>
      rw [checkAll] at h
      obtain ⟨t, ht, hrest⟩ := Option.bind_eq_some_iff.mp h
      have hs := sameBlocks_check s he hg ht
      exact hs.trans (sameBlocks_checkAll rest (hs.ne_nil he) (by rw [hs.globals]; exact hg) hrest)
end

end Statement

/-! ## Single lines -/

namespace Progress

/-- Inside a block the survey does nothing but count. -/
theorem result?_survey_of_ne {p : Progress} (hn : p.nesting ≠ 0) (line : Text) :
    (p.survey line).result? =
      some ⟨p.env, p.nesting + (Category.of line).change, p.afterReturn⟩ := by
  rw [result?_survey, if_neg hn]
  rfl

theorem result?_inspect_of_rule {p : Progress} {line : Text} {rule : Rule}
    (h : Rule.standard (Category.of line) = some rule) :
    (p.inspect line).result? =
      (rule.apply p.afterReturn p.env line).result?.map fun e =>
        ⟨e, p.nesting, Category.of line = .returnStatement⟩ := by
  rw [result?_inspect, Env.inspectLine, h]

end Progress

namespace Env

theorem result?_openBlock {e : Env} (he : e.locals ≠ []) (line : Text) :
    (e.openBlock line).result? =
      match Condition.operands? (Condition.text line) with
      | none => none
      | some os => if (e.checkOperands os).isOk then some e.push else none := by
  rw [openBlock, isGlobal_eq_false he]
  cases Condition.operands? (Condition.text line) with
  | none => rfl
  | some os => simp [Outcome.result?_require]

theorem result?_closeBlock_of_lt {e : Env} (he : 1 < e.locals.length) (afterReturn : Bool) :
    (e.closeBlock afterReturn).result? = some e.leave := by
  have hbody : e.isMethodBody = false := by
    rw [isMethodBody, depth]
    exact decide_eq_false (by omega)
  cases hl : e.locals with
  | nil => simp [hl] at he
  | cons f outer => simp [closeBlock, hbody, pop, leave, hl]

theorem result?_closeBlock_of_eq {e : Env} (he : e.locals.length = 1) (afterReturn : Bool) :
    (e.closeBlock afterReturn).result? = if afterReturn then some e.leave else none := by
  have hbody : e.isMethodBody = true := by
    rw [isMethodBody, depth, he]
    rfl
  cases hl : e.locals with
  | nil => simp [hl] at he
  | cons f outer => cases afterReturn <;> simp [closeBlock, hbody, pop, leave, hl]

theorem checkReturn_isOk {e : Env} (he : e.locals ≠ []) {line : Text} (h : isReturn line) :
    (e.checkReturn line).isOk = true := by
  simp [checkReturn, h, isGlobal_eq_false he, Except.isOk, Except.toBool]

end Env

/-! ## Bodies -/

namespace Statement

open Outcome Progress

mutual
/-- The survey counts the blocks of a statement and is done with it. -/
theorem result?_survey_lines (s : Statement) {e : Env} {n : Int} {r : Bool} (hn : 0 < n) :
    (each survey ⟨e, n, r⟩ s.lines).result? = some ⟨e, n, r⟩ := by
  have hne : n ≠ 0 := by omega
  cases s with
  | declaration line | assignment line | call line | leave line =>
      rw [lines, result?_each_singleton, result?_survey_of_ne hne, line.of_text]
      simp [Category.change]
  | block header body =>
      have hpos : 0 < n + 1 := by omega
      have hne' : n + 1 ≠ 0 := by omega
      rw [lines, result?_each_cons, result?_survey_of_ne hne, header.of_text, Option.bind_some,
        result?_each_append, Category.change, result?_survey_linesOf body hpos, Option.bind_some,
        result?_each_singleton, result?_survey_of_ne hne', of_closing]
      simp only [Category.change, Option.some.injEq, Progress.mk.injEq, true_and, and_true]
      omega

theorem result?_survey_linesOf (ss : List Statement) {e : Env} {n : Int} {r : Bool} (hn : 0 < n) :
    (each survey ⟨e, n, r⟩ (linesOf ss)).result? = some ⟨e, n, r⟩ := by
  cases ss with
  | nil => rfl
  | cons s rest =>
      rw [linesOf, result?_each_append, result?_survey_lines s hn, Option.bind_some,
        result?_survey_linesOf rest hn]
end

/-- A list of statements ends in a return, or is empty and comes after one. -/
def afterReturn (r : Bool) (ss : List Statement) : Bool := (ss.getLast?.map isReturn).getD r

theorem afterReturn_cons (r : Bool) (s : Statement) (rest : List Statement) :
    afterReturn s.isReturn rest = afterReturn r (s :: rest) := by
  cases h : rest.getLast? <;> simp [afterReturn, List.getLast?_cons, h]

mutual
theorem result?_inspect_lines (s : Statement) {e : Env} {n : Int} {r : Bool}
    (he : e.locals ≠ []) (hg : e.globals.AllGlobal) :
    (each inspect ⟨e, n, r⟩ s.lines).result? =
      (s.check e).map fun e' => ⟨e', n, s.isReturn⟩ := by
  cases s with
  | declaration line =>
      rw [lines, result?_each_singleton, result?_inspect_of_rule (by rw [line.of_text]; rfl),
        line.of_text, check]
      rfl
  | assignment line =>
      rw [lines, result?_each_singleton, result?_inspect_of_rule (by rw [line.of_text]; rfl),
        line.of_text, check, Rule.apply, if_neg (by simp [Env.isGlobal_eq_false he])]
      rfl
  | call line =>
      rw [lines, result?_each_singleton, result?_inspect_of_rule (by rw [line.of_text]; rfl),
        line.of_text, check, Rule.apply, result?_require]
      rfl
  | leave line =>
      have hret : SJava.isReturn line.text :=
        Category.admits_of_of_eq line.of_text (by decide) (by decide)
      rw [lines, result?_each_singleton, result?_inspect_of_rule (by rw [line.of_text]; rfl),
        line.of_text, check, Rule.apply, result?_require, if_pos (Env.checkReturn_isOk he hret)]
      rfl
  | block header body =>
      rw [lines, result?_each_cons, result?_inspect_of_rule (by rw [header.of_text]; rfl),
        header.of_text, check, Rule.apply, Env.result?_openBlock he]
      cases Condition.operands? (Condition.text header.text) with
      | none => rfl
      | some os =>
          by_cases hok : (e.checkOperands os).isOk = true
          · have hne : e.push.locals ≠ [] := List.cons_ne_nil _ _
            simp only [hok, if_true, Option.map_some, Option.bind_some]
            rw [result?_each_append, result?_inspect_linesOf body hne hg]
            cases hb : checkAll e.push body with
            | none => rfl
            | some t =>
                have hlen : 1 < t.locals.length := by
                  have hpos := List.length_pos_iff.mpr he
                  rw [(sameBlocks_checkAll body hne hg hb).length, Env.push, List.length_cons]
                  omega
                simp only [Option.map_some, Option.bind_some]
                rw [result?_each_singleton, result?_inspect_of_rule (by rw [of_closing]; rfl),
                  of_closing, Rule.apply, Env.result?_closeBlock_of_lt hlen]
                rfl
          · simp only [hok, if_false, Bool.false_eq_true]
            rfl

theorem result?_inspect_linesOf (ss : List Statement) {e : Env} {n : Int} {r : Bool}
    (he : e.locals ≠ []) (hg : e.globals.AllGlobal) :
    (each inspect ⟨e, n, r⟩ (linesOf ss)).result? =
      (checkAll e ss).map fun e' => ⟨e', n, afterReturn r ss⟩ := by
  cases ss with
  | nil => rfl
  | cons s rest =>
      rw [linesOf, result?_each_append, result?_inspect_lines s he hg, checkAll]
      cases hs : s.check e with
      | none => rfl
      | some t =>
          have hb := sameBlocks_check s he hg hs
          have hg' : t.globals.AllGlobal := by rw [hb.globals]; exact hg
          simp only [Option.map_some, Option.bind_some]
          rw [result?_inspect_linesOf rest (hb.ne_nil he) hg', afterReturn_cons r]
end

end Statement

/-! ## Global lines -/

def Env.withMethods (ms : List Signature) (e : Env) : Env := { e with methods := ms }

namespace Env

variable (ms : List Signature) (e : Env)

theorem declare_withMethods (x : Text) (ty : Ty) (isFinal i : Bool) :
    (e.withMethods ms).declare x ty isFinal i =
      (e.declare x ty isFinal i).map (withMethods ms) := by
  obtain ⟨m, g, l⟩ := e
  cases l <;> rfl

theorem assign_withMethods (x : Text) :
    (e.withMethods ms).assign x = (e.assign x).map (withMethods ms) := by
  have hf : (e.withMethods ms).find? x = e.find? x := rfl
  have hg : (e.withMethods ms).isGlobal = e.isGlobal := rfl
  have hl : (e.withMethods ms).locals = e.locals := rfl
  simp only [assign, hf, hg, hl]
  cases e.find? x with
  | none => rfl
  | some b =>
      simp only
      split
      · rfl
      split
      · rfl
      split <;> rfl

theorem declareClause_withMethods (d : Declarator) (c : Clause) :
    declareClause d (e.withMethods ms) c = (declareClause d e c).map (withMethods ms) := by
  have hd : (e.withMethods ms).declaresHere c.name = e.declaresHere c.name := rfl
  have hv (v : Text) : (e.withMethods ms).checkValue d.ty v = e.checkValue d.ty v := rfl
  simp only [declareClause, hd, hv, declare_withMethods]
  split
  · rfl
  split
  · rfl
  cases c.value with
  | none =>
      simp only
      split <;> rfl
  | some v => exact (Outcome.map_require _ e _ _).symm

theorem assignClause_withMethods (line : Text) (c : Clause) :
    assignClause line (e.withMethods ms) c = (assignClause line e c).map (withMethods ms) := by
  have hf : (e.withMethods ms).find? c.name = e.find? c.name := rfl
  have hv (t : Ty) (v : Text) : (e.withMethods ms).checkValue t v = e.checkValue t v := rfl
  simp only [assignClause, hf, hv, assign_withMethods]
  cases e.find? c.name with
  | none => rfl
  | some b =>
      simp only
      split
      · rfl
      cases c.value with
      | none => rfl
      | some v => exact (Outcome.map_require _ e _ _).symm

/-- A declaration does not look at the methods. -/
theorem declareLine_withMethods (pass : Pass) (line : Text) :
    (e.withMethods ms).declareLine pass line =
      (e.declareLine pass line).map (withMethods ms) := by
  have hg : (e.withMethods ms).isGlobal = e.isGlobal := rfl
  simp only [declareLine_eq, hg]
  split
  · rfl
  cases Declaration.parse? line with
  | none => rfl
  | some d =>
      cases h : Clause.firstRepeated [] d.clauses with
      | some x => simp [h]
      | none =>
          simp only [h]
          exact Outcome.each_map (fun t c => declareClause_withMethods ms t d.declarator c) e _

theorem assignLine_withMethods (line : Text) :
    (e.withMethods ms).assignLine line = (e.assignLine line).map (withMethods ms) := by
  simp only [assignLine]
  cases Assignment.parse? line with
  | none => rfl
  | some cs =>
      cases h : Clause.firstRepeated [] cs with
      | some x => simp [h]
      | none =>
          simp only [h]
          exact Outcome.each_map (fun t c => assignClause_withMethods ms t line c) e _

end Env

theorem Item.declareIn_withMethods (ms : List Signature) (e : Env) (item : Item) :
    item.declareIn (e.withMethods ms) = (item.declareIn e).map (Env.withMethods ms) := by
  cases item with
  | declaration line => exact e.declareLine_withMethods ms .survey line.text
  | assignment line => exact e.assignLine_withMethods ms line.text
  | method header body => rfl

/-! ## The survey of a program -/

theorem Line.result?_headerLine_survey (header : Line .methodDeclaration) {e : Env}
    (he : e.locals = []) :
    (e.headerLine .survey header.text).result? =
      header.signature?.bind fun s =>
        if e.signature? s.name = none then some (e.withMethods (s :: e.methods)) else none := by
  rw [Env.result?_headerLine_survey he, Line.signature?]
  cases Header.parse? header.text with
  | none => rfl
  | some hd => cases h : hd.signature <;> simp [h, Except.toOption, Env.withMethods]

/-- Signatures are new to an environment and to each other if the first one is new to it,
and the others are new once the first one is known. -/
theorem Env.fresh_withMethods_iff {e : Env} {s : Signature} (hs : e.signature? s.name = none)
    (ss : List Signature) :
    ((ss.map (·.name)).Nodup ∧
        ∀ t ∈ ss, (e.withMethods (s :: e.methods)).signature? t.name = none) ↔
      (((s :: ss).map (·.name)).Nodup ∧ ∀ t ∈ s :: ss, e.signature? t.name = none) := by
  have hcons (m : Text) : (e.withMethods (s :: e.methods)).signature? m = none ↔
      s.name ≠ m ∧ e.signature? m = none := by
    simp [signature?, withMethods]
  simp only [hcons, List.map_cons, List.nodup_cons, List.mem_map, List.forall_mem_cons, hs,
    true_and]
  constructor
  · rintro ⟨hn, h⟩
    refine ⟨⟨?_, hn⟩, fun t ht => (h t ht).2⟩
    rintro ⟨t, ht, heq⟩
    exact (h t ht).1 heq.symm
  · rintro ⟨⟨hne, hn⟩, h⟩
    exact ⟨hn, fun t ht => ⟨fun heq => hne ⟨t, ht, heq.symm⟩, h t ht⟩⟩

namespace Item

open Outcome Progress

theorem atTop_declareIn {e : Env} (he : e.AtTop) (item : Item) :
    (item.declareIn e).state.AtTop := by
  cases item with
  | declaration line => exact he.declareLine line.text
  | assignment line => exact he.assignLine line.text
  | method header body => exact he

theorem methods_declareIn (e : Env) (item : Item) :
    (item.declareIn e).state.methods = e.methods := by
  cases item with
  | declaration line => exact e.methods_declareLine .survey line.text
  | assignment line => exact e.methods_assignLine line.text
  | method header body => rfl

theorem result?_survey_of_header?_eq_none {item : Item} (h : item.header? = none) (e : Env)
    (r : Bool) :
    (each survey ⟨e, 0, r⟩ item.lines).result? =
      (item.declareIn e).result?.map fun t => ⟨t, 0, r⟩ := by
  cases item with
  | declaration line | assignment line =>
      rw [lines, result?_each_singleton, result?_survey, if_pos rfl, Env.surveyLine, line.of_text]
      rfl
  | method header body => simp [header?] at h

theorem result?_survey_method (header : Line .methodDeclaration) (body : List Statement) (e : Env)
    (r : Bool) :
    (each survey ⟨e, 0, r⟩ (method header body).lines).result? =
      (e.headerLine .survey header.text).result?.map fun t => ⟨t, 0, r⟩ := by
  rw [lines, result?_each_cons, result?_survey, if_pos rfl, Env.surveyLine, header.of_text]
  cases (e.headerLine .survey header.text).result? with
  | none => rfl
  | some t =>
      have hne : (0 + 1 : Int) ≠ 0 := by decide
      simp only [Option.map_some, Option.bind_some, Category.change]
      rw [result?_each_append, Statement.result?_survey_linesOf body (by omega), Option.bind_some,
        result?_each_singleton, result?_survey_of_ne hne, of_closing]
      rfl

/-- The survey takes the global lines and the headers in the order in which they stand, but
neither kind depends on the other. -/
theorem result?_survey_items (items : List Item) {e : Env} (he : e.AtTop) (r : Bool) :
    (each survey ⟨e, 0, r⟩ (items.flatMap lines)).result? =
      (each declareIn e items).result?.bind fun t =>
        ((items.filterMap header?).mapM Line.signature?).bind fun ss =>
          if (ss.map (·.name)).Nodup ∧ ∀ s ∈ ss, e.signature? s.name = none then
            some ⟨t.withMethods (ss.reverse ++ e.methods), 0, r⟩
          else none := by
  induction items generalizing e with
  | nil => simp [Env.withMethods]
  | cons item items ih =>
      rw [List.flatMap_cons, result?_each_append, result?_each_cons]
      cases hh : item.header? with
      | none =>
          rw [result?_survey_of_header?_eq_none hh]
          cases ht : (item.declareIn e).result? with
          | none => rfl
          | some t =>
              have hstate := (Outcome.result?_eq_some_iff.mp ht).2
              have htop : t.AtTop := hstate ▸ atTop_declareIn he item
              have hm : t.methods = e.methods := hstate ▸ methods_declareIn e item
              have hs (m : Text) : t.signature? m = e.signature? m := by
                rw [Env.signature?, Env.signature?, hm]
              simp only [Option.map_some, Option.bind_some, ih htop, hs, hm,
                List.filterMap_cons_none hh]
      | some header =>
          obtain ⟨body, rfl⟩ : ∃ body, item = method header body := by
            cases item <;> simp_all [header?]
          rw [result?_survey_method, header.result?_headerLine_survey he.locals,
            List.filterMap_cons_some hh, List.mapM_cons]
          cases hsig : header.signature? with
          | none => cases (each declareIn e items).result? <;> simp [declareIn]
          | some s =>
              by_cases hs : e.signature? s.name = none
              · have htop : (e.withMethods (s :: e.methods)).AtTop := ⟨he.locals, he.allGlobal⟩
                simp only [Option.bind_some, if_pos hs, Option.map_some, ih htop,
                  each_map (declareIn_withMethods (s :: e.methods)), result?_map,
                  Env.fresh_withMethods_iff hs, declareIn, result?_ok]
                cases (each declareIn e items).result? with
                | none => rfl
                | some t =>
                    cases (items.filterMap header?).mapM Line.signature? with
                    | none => rfl
                    | some ss => simp [Env.withMethods]
              · simp only [Option.bind_some, if_neg hs, Option.map_none, Option.bind_none,
                  declareIn, result?_ok]
                cases (each declareIn e items).result? with
                | none => rfl
                | some t =>
                    cases (items.filterMap header?).mapM Line.signature? with
                    | none => rfl
                    | some ss => simp [hs]

end Item

/-- The survey of a program ends with what its methods can rely on. -/
theorem Program.result?_survey (p : Program) :
    (Outcome.each Progress.survey Progress.start p.lines).result? =
      p.environment?.map fun e => ⟨e, 0, false⟩ := by
  have hnone (s : Signature) : Env.empty.signature? s.name = none := rfl
  have hitems := Item.result?_survey_items p.items Env.atTop_empty false
  rw [Progress.start, lines, hitems, environment?, globals?, signatures?]
  cases ht : (Outcome.each Item.declareIn Env.empty p.items).result? with
  | none => rfl
  | some t =>
      have hl : t.locals = [] := by
        rw [← (Outcome.result?_eq_some_iff.mp ht).2]
        exact (Outcome.state_each (P := Env.AtTop) (fun e item he => Item.atTop_declareIn he item)
          Env.atTop_empty p.items).locals
      cases hss : (p.items.filterMap Item.header?).mapM Line.signature? with
      | none => rfl
      | some ss =>
          simp only [Option.bind_some, Option.map_some, hnone, implies_true, and_true]
          split
          · simp [Env.withMethods, Env.empty, hl]
          · rfl

/-! ## The inspection of a program -/

/-- The inspection enters a method that is known by the signature its header announces. -/
theorem Line.result?_headerLine_inspection {header : Line .methodDeclaration} {e : Env}
    (he : e.locals = []) {s : Signature} (hs : header.signature? = some s)
    (hk : e.signature? s.name = some s) :
    (e.headerLine .inspection header.text).result? =
      if (s.parameters.map (·.name)).Nodup then
        some { e with locals := [Frame.ofParameters s.parameters] }
      else none := by
  obtain ⟨hd, hhd, hsig⟩ := Option.bind_eq_some_iff.mp hs
  have hok : hd.signature = .ok s := by
    cases h : hd.signature <;> simp [h, Except.toOption] at hsig
    rw [hsig]
  have hk' : e.signature? hd.name = some s := by rw [← Header.name_of_signature hok]; exact hk
  simp only [Env.headerLine, hhd, Env.isGlobal_eq_true he]
  exact Env.result?_enterMethod he hk'

def Item.Known (e : Env) (item : Item) : Prop :=
  ∀ header, item.header? = some header →
    ∃ s, header.signature? = some s ∧ e.signature? s.name = some s

namespace Item

open Outcome Progress

/-- The inspection of an item ends where it began. -/
theorem result?_inspect {e : Env} (he : e.AtTop) {item : Item} (hk : item.Known e) (n : Int)
    (r : Bool) :
    (each inspect ⟨e, n, r⟩ item.lines).result? =
      if item.isLegal e then some ⟨e, n, false⟩ else none := by
  cases item with
  | declaration line =>
      rw [lines, result?_each_singleton, result?_inspect_of_rule (by rw [line.of_text]; rfl),
        line.of_text, Rule.apply, Env.declareLine, Env.isGlobal_eq_true he.locals]
      rfl
  | assignment line =>
      rw [lines, result?_each_singleton, result?_inspect_of_rule (by rw [line.of_text]; rfl),
        line.of_text, Rule.apply, if_pos (Env.isGlobal_eq_true he.locals)]
      rfl
  | method header body =>
      obtain ⟨s, hs, hsig⟩ := hk header rfl
      rw [lines, result?_each_cons, result?_inspect_of_rule (by rw [header.of_text]; rfl),
        header.of_text, Rule.apply, Line.result?_headerLine_inspection he.locals hs hsig,
        isLegal, hs]
      by_cases hn : (s.parameters.map (·.name)).Nodup
      · let e' : Env := { e with locals := [Frame.ofParameters s.parameters] }
        have hne : e'.locals ≠ [] := List.cons_ne_nil _ _
        simp only [hn, if_true, Option.map_some, Option.bind_some, decide_true, Bool.true_and]
        rw [result?_each_append, Statement.result?_inspect_linesOf body hne he.allGlobal]
        cases hb : Statement.checkAll e' body with
        | none => rfl
        | some t =>
            have hsame := Statement.sameBlocks_checkAll body hne he.allGlobal hb
            have hleave : t.leave = e := by
              have hl : t.locals.tail = [] :=
                List.length_eq_zero_iff.mp (by simp [hsame.length, e'])
              exact Env.SameGlobals.eq_of_locals ⟨hsame.methods, hsame.globals⟩
                (hl.trans he.locals.symm)
            simp only [Option.map_some, Option.bind_some]
            rw [result?_each_singleton, result?_inspect_of_rule (by rw [of_closing]; rfl),
              of_closing, Rule.apply, Env.result?_closeBlock_of_eq hsame.length, hleave]
            cases h : body.getLast? with
            | none => simp [Statement.afterReturn, h]
            | some last => cases hr : last.isReturn <;> simp [Statement.afterReturn, h, hr]
      · simp [hn]

theorem result?_inspect_items {e : Env} (he : e.AtTop) {items : List Item}
    (hk : ∀ item ∈ items, item.Known e) (n : Int) :
    (each inspect ⟨e, n, false⟩ (items.flatMap lines)).result? =
      if items.all (isLegal e) then some ⟨e, n, false⟩ else none := by
  induction items with
  | nil => rfl
  | cons item items ih =>
      have hrest := ih fun other h => hk other (List.mem_cons_of_mem _ h)
      rw [List.flatMap_cons, result?_each_append, result?_inspect he (hk item List.mem_cons_self)]
      cases hl : item.isLegal e <;> simp [hl, hrest]

end Item

theorem Env.signature?_eq_some_of_mem {e : Env} (hn : (e.methods.map (·.name)).Nodup)
    {s : Signature} (hs : s ∈ e.methods) : e.signature? s.name = some s := by
  cases h : e.signature? s.name with
  | none => simpa using List.find?_eq_none.mp h s hs
  | some t =>
      have hname : t.name = s.name := by simpa using List.find?_some h
      rw [List.inj_on_of_nodup_map hn (List.mem_of_find?_eq_some h) hs hname]

theorem exists_mem_of_mapM_eq_some {α β : Type} {f : α → Option β} {as : List α} {bs : List β}
    (h : as.mapM f = some bs) {a : α} (ha : a ∈ as) : ∃ b ∈ bs, f a = some b := by
  induction as generalizing bs with
  | nil => simp at ha
  | cons c as ih =>
      rw [List.mapM_cons] at h
      obtain ⟨b, hb, h⟩ := Option.bind_eq_some_iff.mp h
      obtain ⟨bs', hbs, h⟩ := Option.bind_eq_some_iff.mp h
      obtain rfl : b :: bs' = bs := Option.some.inj h
      rcases List.mem_cons.mp ha with rfl | ha
      · exact ⟨b, List.mem_cons_self, hb⟩
      · obtain ⟨b', hb', hf⟩ := ih hbs ha
        exact ⟨b', List.mem_cons_of_mem _ hb', hf⟩

namespace Program

/-- The global variables of the environment are those that the global lines declare. -/
theorem exists_globals_of_environment? {p : Program} {e : Env} (h : p.environment? = some e) :
    ∃ t, (Outcome.each Item.declareIn Env.empty p.items).result? = some t ∧ t.AtTop ∧
      t.globals = e.globals := by
  obtain ⟨globals, hglobals, h⟩ := Option.bind_eq_some_iff.mp h
  obtain ⟨ss, hss, h⟩ := Option.bind_eq_some_iff.mp h
  obtain ⟨t, ht, rfl⟩ := Option.map_eq_some_iff.mp hglobals
  have htop := Outcome.state_each (P := Env.AtTop)
    (fun e item he => Item.atTop_declareIn he item) Env.atTop_empty p.items
  rw [(Outcome.result?_eq_some_iff.mp ht).2] at htop
  split at h
  · obtain rfl := Option.some.inj h
    exact ⟨t, ht, htop, rfl⟩
  · simp at h

theorem known_of_environment? {p : Program} {e : Env} (h : p.environment? = some e) :
    e.AtTop ∧ ∀ item ∈ p.items, item.Known e := by
  obtain ⟨t, _, htop, hglobals⟩ := exists_globals_of_environment? h
  obtain ⟨globals, _, h⟩ := Option.bind_eq_some_iff.mp h
  obtain ⟨ss, hss, h⟩ := Option.bind_eq_some_iff.mp h
  split at h
  · next hn =>
    obtain rfl := Option.some.inj h
    refine ⟨⟨rfl, hglobals ▸ htop.allGlobal⟩, fun item hitem header hheader => ?_⟩
    have hmem : header ∈ p.items.filterMap Item.header? :=
      List.mem_filterMap.mpr ⟨item, hitem, hheader⟩
    obtain ⟨s, hs, hsig⟩ := exists_mem_of_mapM_eq_some hss hmem
    refine ⟨s, hsig, Env.signature?_eq_some_of_mem ?_ (List.mem_reverse.mpr hs)⟩
    rw [List.map_reverse, List.nodup_reverse]
    exact hn
  · simp at h

end Program
end SJava
