/-
Lines that more than one grammar admits.

A line is inspected by the first grammar that admits it, while the survey asks the grammars one
by one.  That the two can be used together rests on how little the grammars have in common: only
a declaration can be admitted by another grammar too, that of a call or that of an assignment
(`Category.admitting_cases`).  So of the order in which the grammars are tried nothing matters but
that declarations come before these two (`Category.inOrder_eq_of_iff`).  A line of which this is
true has a mark after its type where the first name should be.  No rule accepts it, and it stands
in no legal program.
-/
import SJava.Proofs.Printing
import SJava.Proofs.Segments

namespace SJava

open Text

namespace Category

/-! ## Grammars with a line in common -/

/-- The grammars that admit a line, in the order in which they are tried. -/
def admitting (line : Text) : List Category := byPriority.filter fun c => c.admits line

/-- More than one grammar admits the line. -/
def Ambiguous (line : Text) : Prop := ∃ c d : Category, c ≠ d ∧ c.admits line ∧ d.admits line

theorem mem_byPriority_of_admits {c : Category} {line : Text} (h : c.admits line) :
    c ∈ byPriority := by
  cases c <;> first | decide | exact absurd h (by simp [admits])

/-- The word `return` ends at the semicolon. -/
theorem exists_of_returnStatement {line : Text} (h : returnStatement.admits line) :
    ∃ s, trimStart line = "return".toList ++ s ∧ ∃ rest, afterWord line = ';' :: rest := by
  obtain ⟨s, hs, hsemi⟩ := (Option.any_eq_true _ _).mp h
  obtain ⟨g, hg, hgs⟩ := exists_append_trimStart s
  obtain ⟨g', _, hline⟩ := exists_trimEnd_append (trimStart line)
  rw [← trim, after?_eq_some_iff.mp hs, hgs, beq_iff_eq.mp hsemi] at hline
  have heq : trimStart line = "return".toList ++ (g ++ ';' :: g') := by
    rw [hline, List.append_assoc, List.append_assoc, List.singleton_append]
  have hdrop := (takeWhile_isWord_gap (w := "return".toList) (c := ';') (by decide) hg
    (isWord_eq_false_of_ascii (by decide)) g').2
  refine ⟨_, heq, g', ?_⟩
  rw [afterWord, heq, hdrop, trimStart_append hg]
  exact trimStart_cons (by decide) g'

/-- No declarator begins like the word `return`. -/
theorem variableDeclaration_admits_eq_false {line : Text} (h : returnStatement.admits line) :
    variableDeclaration.admits line = false := by
  rw [Bool.eq_false_iff]
  intro hd
  obtain ⟨s, hs, _⟩ := exists_of_returnStatement h
  obtain ⟨d, r, _, _, hparse, _⟩ := Declaration.exists_of_isLine hd
  rcases Declarator.parse?_eq_some hparse with ⟨u, hu, _⟩ | heq
  · rw [hs] at hu
    exact absurd (List.cons.inj (after?_eq_some_iff.mp hu)).1 (by decide)
  · cases ht : d.ty <;> rw [ht] at heq <;>
      exact absurd (List.cons.inj (hs.symm.trans heq)).1 (by decide)

theorem of_eq_of_methodCall {line : Text} (h : methodCall.admits line) :
    of line = methodCall ∨ of line = variableDeclaration := by
  cases hd : variableDeclaration.admits line with
  | true => exact Or.inr ((admits_iff_of_eq (by simp) line).mp hd)
  | false =>
      refine Or.inl (of_eq_of_admits [methodDeclaration, variableDeclaration,
        conditionalBlockStart] rfl h fun c' hc' => ?_)
      simp only [List.mem_cons, List.not_mem_nil, or_false] at hc'
      rcases hc' with rfl | rfl | rfl
      · exact admits_eq_false_of_lastMark h (by decide)
      · exact hd
      · exact admits_eq_false_of_lastMark h (by decide)

/-- A return has a semicolon where a call has a parenthesis and an assignment an equals
sign. -/
theorem of_eq_of_returnStatement {line : Text} (h : returnStatement.admits line) :
    of line = returnStatement := by
  obtain ⟨_, _, rest, hrest⟩ := exists_of_returnStatement h
  refine of_eq_of_admits [methodDeclaration, variableDeclaration, conditionalBlockStart, methodCall,
    blockEnd, variableAssignment] rfl h fun c' hc' => ?_
  simp only [List.mem_cons, List.not_mem_nil, or_false] at hc'
  rcases hc' with rfl | rfl | rfl | rfl | rfl | rfl
  · exact admits_eq_false_of_lastMark h (by decide)
  · exact variableDeclaration_admits_eq_false h
  · exact admits_eq_false_of_lastMark h (by decide)
  · rw [Bool.eq_false_iff]
    intro hcall
    obtain ⟨rest', hrest'⟩ := exists_afterWord_of_methodCall hcall
    exact absurd (List.cons.inj (hrest.symm.trans hrest')).1 (by decide)
  · exact admits_eq_false_of_lastMark h (by decide)
  · rw [Bool.eq_false_iff]
    intro hassign
    obtain ⟨rest', hrest'⟩ := exists_afterWord_of_variableAssignment hassign
    exact absurd (List.cons.inj (hrest.symm.trans hrest')).1 (by decide)

/-- A line belongs to a category whose grammar admits it, or it is a call or an assignment that
is taken for a declaration. -/
theorem of_eq_or_of_admits {c : Category} {line : Text} (h : c.admits line) :
    of line = c ∨ of line = variableDeclaration ∧ c ∈ [methodCall, variableAssignment] := by
  cases c with
  | illegalComment => exact absurd h (by simp [admits])
  | unknown => exact absurd h (by simp [admits])
  | methodDeclaration => exact Or.inl ((admits_iff_of_eq (by simp) line).mp h)
  | variableDeclaration => exact Or.inl ((admits_iff_of_eq (by simp) line).mp h)
  | conditionalBlockStart => exact Or.inl ((admits_iff_of_eq (by simp) line).mp h)
  | blockEnd => exact Or.inl ((admits_iff_of_eq (by simp) line).mp h)
  | methodCall => exact (of_eq_of_methodCall h).imp_right fun hd => ⟨hd, by simp⟩
  | variableAssignment => exact (of_eq_of_variableAssignment h).imp_right fun hd => ⟨hd, by simp⟩
  | returnStatement => exact Or.inl (of_eq_of_returnStatement h)

/-- A call is no assignment, so a declaration is mistaken for at most one of them. -/
theorem eq_of_admits_of_mem {c d : Category} {line : Text}
    (hc : c ∈ [methodCall, variableAssignment]) (hd : d ∈ [methodCall, variableAssignment])
    (hcl : c.admits line) (hdl : d.admits line) : c = d := by
  simp only [List.mem_cons, List.not_mem_nil, or_false] at hc hd
  rcases hc with rfl | rfl <;> rcases hd with rfl | rfl
  · rfl
  · rw [methodCall_admits_eq_false hdl] at hcl
    exact absurd hcl (by decide)
  · rw [methodCall_admits_eq_false hcl] at hdl
    exact absurd hdl (by decide)
  · rfl

theorem admitting_eq_filter {line : Text} {p : Category → Bool}
    (h : ∀ c ∈ byPriority, c.admits line ↔ p c) : admitting line = byPriority.filter p := by
  refine List.filter_congr fun c hc => ?_
  rw [Bool.eq_iff_iff]
  exact h c hc

theorem isComment_of_of_eq {line : Text} (h : of line = illegalComment) :
    isComment line = true := by
  cases hc : isComment line with
  | true => rfl
  | false =>
      rw [of, hc, if_neg Bool.false_ne_true] at h
      cases hf : byPriority.find? fun c => c.admits line with
      | none => rw [hf] at h; exact absurd h (by decide)
      | some c =>
          rw [hf] at h
          obtain rfl : c = illegalComment := h
          exact absurd (List.mem_of_find?_eq_some hf) (by decide)

/-- A line that is no comment satisfies no grammar and is unknown, or it satisfies one grammar,
or it is a declaration that could also be a call or an assignment. -/
theorem admitting_cases {line : Text} (h : isComment line = false) :
    (admitting line = [] ∧ of line = unknown) ∨
      (∃ c, admitting line = [c] ∧ of line = c) ∨
      ∃ c ∈ [methodCall, variableAssignment],
        admitting line = [variableDeclaration, c] ∧ of line = variableDeclaration := by
  have hcomment : of line ≠ illegalComment := by
    intro hof
    rw [isComment_of_of_eq hof] at h
    exact absurd h (by decide)
  by_cases hunknown : of line = unknown
  · refine Or.inl ⟨List.filter_eq_nil_iff.mpr fun c _ hc => ?_, hunknown⟩
    rcases of_eq_or_of_admits hc with hof | ⟨hof, _⟩
    · rw [hunknown] at hof
      rw [← hof] at hc
      exact absurd hc (by simp [admits])
    · rw [hunknown] at hof
      exact absurd hof (by decide)
  have hadmits : (of line).admits line := admits_of_of_eq rfl hcomment hunknown
  by_cases hpair : ∃ c ∈ [methodCall, variableAssignment],
      c.admits line ∧ of line = variableDeclaration
  · obtain ⟨c, hc, hcl, hof⟩ := hpair
    refine Or.inr (Or.inr ⟨c, hc, ?_, hof⟩)
    rw [admitting_eq_filter (p := fun d => d = variableDeclaration ∨ d = c)]
    · simp only [List.mem_cons, List.not_mem_nil, or_false] at hc
      rcases hc with rfl | rfl <;> rfl
    intro d _
    rw [decide_eq_true_iff]
    constructor
    · intro hd
      rcases of_eq_or_of_admits hd with hof' | ⟨_, hmem⟩
      · exact Or.inl (hof'.symm.trans hof)
      · exact Or.inr (eq_of_admits_of_mem hmem hc hd hcl)
    · rintro (rfl | rfl)
      · exact hof ▸ hadmits
      · exact hcl
  · refine Or.inr (Or.inl ⟨of line, ?_, rfl⟩)
    rw [admitting_eq_filter (p := fun d => d = of line)]
    · have hmem := mem_byPriority_of_admits hadmits
      revert hmem
      generalize of line = c
      cases c <;> decide
    intro d _
    rw [decide_eq_true_iff]
    constructor
    · intro hd
      rcases of_eq_or_of_admits hd with hof | ⟨hof, hmem⟩
      · exact hof.symm
      · exact absurd ⟨d, hmem, hd, hof⟩ hpair
    · rintro rfl
      exact hadmits

theorem Ambiguous.exists_pair {line : Text} (h : Ambiguous line) :
    variableDeclaration.admits line ∧ ∃ c ∈ [methodCall, variableAssignment], c.admits line := by
  obtain ⟨c, d, hne, hc, hd⟩ := h
  have hmem {c : Category} (hc : c.admits line) : c ∈ admitting line :=
    List.mem_filter.mpr ⟨mem_byPriority_of_admits hc, hc⟩
  have hmem' {c : Category} (hc : c ∈ admitting line) : c.admits line := (List.mem_filter.mp hc).2
  rcases admitting_cases (isComment_eq_false_of_admits hc) with ⟨hnil, _⟩ | ⟨b, hone, _⟩ |
    ⟨b, hb, htwo, _⟩
  · exact absurd (hnil ▸ hmem hc) List.not_mem_nil
  · have hcb : c = b := List.mem_singleton.mp (hone ▸ hmem hc)
    have hdb : d = b := List.mem_singleton.mp (hone ▸ hmem hd)
    exact absurd (hcb.trans hdb.symm) hne
  · exact ⟨hmem' (by simp [htwo]), b, hb, hmem' (by simp [htwo])⟩

/-! ## Orders -/

/-- The category of a line when the grammars are tried in the given order. -/
def inOrder (order : List Category) (line : Text) : Category :=
  if isComment line then illegalComment
  else (order.find? fun c => c.admits line).getD unknown

section Order

variable {order : List Category} (horder : order.Perm byPriority) {line : Text}
include horder

/-- Of two grammars that admit a line, the one that is tried first is found. -/
theorem find?_eq_some_iff_sublist {c d : Category} (h : admitting line = [c, d]) :
    (order.find? fun c => c.admits line) = some c ↔ [c, d].Sublist order := by
  have hperm : (order.filter fun c => c.admits line).Perm [c, d] := h ▸ horder.filter _
  rw [← List.head?_filter]
  constructor
  · intro hhead
    obtain ⟨rest, hrest⟩ := List.head?_eq_some_iff.mp hhead
    rw [hrest, List.perm_cons, List.perm_singleton] at hperm
    rw [← hperm, ← hrest]
    exact List.filter_sublist
  · intro hsub
    have hboth : [c, d].filter (fun c => c.admits line) = [c, d] := by
      rw [← h, admitting, List.filter_filter]
      simp
    have hfilter := hsub.filter fun c => c.admits line
    rw [hboth] at hfilter
    rw [← hfilter.eq_of_length hperm.length_eq.symm]
    rfl

/-- A grammar that alone admits a line is found in every order. -/
theorem find?_eq_of_length_le (h : (admitting line).length ≤ 1) :
    (order.find? fun c => c.admits line) = (admitting line).head? := by
  have hperm : (order.filter fun c => c.admits line).Perm (admitting line) := horder.filter _
  rw [← List.head?_filter]
  generalize admitting line = cs at h hperm ⊢
  match cs, h with
  | [], _ => rw [hperm.eq_nil]
  | [c], _ => rw [List.perm_singleton.mp hperm]

theorem inOrder_eq_of_iff :
    (∀ line, inOrder order line = of line) ↔
      [variableDeclaration, methodCall].Sublist order ∧
        [variableDeclaration, variableAssignment].Sublist order := by
  constructor
  · intro h
    have hfirst (line : Text) {c : Category} (hadm : admitting line = [variableDeclaration, c])
        (hline : isComment line = false) (hof : of line = variableDeclaration) :
        [variableDeclaration, c].Sublist order := by
      rw [← find?_eq_some_iff_sublist horder hadm]
      have heq := h line
      rw [inOrder, hline, if_neg Bool.false_ne_true, hof] at heq
      cases hf : order.find? fun c => c.admits line with
      | none => rw [hf] at heq; exact absurd heq (by decide)
      | some d => rw [hf] at heq; exact congrArg some heq
    exact ⟨hfirst "int (n);".toList (by decide +kernel) (by decide) (by decide +kernel),
      hfirst "int = 1;".toList (by decide +kernel) (by decide) (by decide +kernel)⟩
  · intro ⟨hcall, hassign⟩ line
    cases hline : isComment line with
    | true => rw [inOrder, of, hline, if_pos rfl, if_pos rfl]
    | false =>
        rw [inOrder, hline, if_neg Bool.false_ne_true]
        rcases admitting_cases hline with ⟨hnil, hof⟩ | ⟨c, hone, hof⟩ | ⟨c, hc, htwo, hof⟩
        · rw [find?_eq_of_length_le horder (by simp [hnil]), hnil, hof]
          rfl
        · rw [find?_eq_of_length_le horder (by simp [hone]), hone, hof]
          rfl
        · have hsub : [variableDeclaration, c].Sublist order := by
            simp only [List.mem_cons, List.not_mem_nil, or_false] at hc
            rcases hc with rfl | rfl
            · exact hcall
            · exact hassign
          rw [(find?_eq_some_iff_sublist horder htwo).mpr hsub, hof]
          rfl

end Order

/-! ## Ambiguous lines are refused -/

/-- Where a call or an assignment is taken for a declaration, a mark follows the first word. -/
theorem Ambiguous.exists_afterWord {line : Text} (h : Ambiguous line) :
    ∃ c rest, (c = '(' ∨ c = '=') ∧ afterWord line = c :: rest := by
  obtain ⟨_, c, hc, hcl⟩ := h.exists_pair
  simp only [List.mem_cons, List.not_mem_nil, or_false] at hc
  rcases hc with rfl | rfl
  · obtain ⟨rest, hrest⟩ := exists_afterWord_of_methodCall hcl
    exact ⟨'(', rest, Or.inl rfl, hrest⟩
  · obtain ⟨rest, hrest⟩ := exists_afterWord_of_variableAssignment hcl
    exact ⟨'=', rest, Or.inr rfl, hrest⟩

end Category

open Category

theorem Declaration.parse?_eq_none_of_mark {c : Char} {line rest : Text} (hc : c = '(' ∨ c = '=')
    (h : afterWord line = c :: rest) : Declaration.parse? line = none := by
  rcases hc with rfl | rfl <;>
    exact parse?_eq_none_of_afterWord h (by decide) (isWord_eq_false_of_ascii (by decide))
      (by decide) (by decide)

/-- White space around a line does not hide that a mark follows the type of a declaration. -/
theorem Declaration.exists_afterWord_trim {c : Char} {line rest : Text}
    (h : Declaration.isLine line) (hmark : afterWord line = c :: rest) (hword : isWord c = false) :
    Declaration.isLine (trim line) ∧ ∃ rest', afterWord (trim line) = c :: rest' := by
  have hblank : isBlank c = false := isBlank_eq_false_of_trimStart hmark
  obtain ⟨d, s, b, r, hd, hr, hb⟩ := Declaration.exists_of_isLine h
  have hhead : ∀ a, s.head? = some a → isWord a = false := by
    intro a ha
    obtain ⟨u, hu⟩ := trimEnd_prefix s
    rw [← hu, before?_eq_some_iff.mp hr] at ha
    obtain rfl : b = a := Option.some.inj ha
    exact isWord_eq_false_of_isBlank hb
  obtain ⟨k, w, hk, hkb, _, hkw⟩ := d.ty.keyword_eq_cons
  rcases Declarator.parse?_eq_some hd with ⟨u, hu, hgap⟩ | hline
  · -- After `final` there is a type, and no mark.
    have hdrop := (takeWhile_isWord_append (w := "final".toList) (by decide)
      (isWord_eq_false_of_afterGap? hgap)).2
    rw [afterWord, after?_eq_some_iff.mp hu, hdrop, trimStart_eq_of_afterGap? hgap, hk] at hmark
    rw [hk, List.all_cons, (List.cons.inj hmark).1, hword] at hkw
    exact absurd hkw (by simp)
  · rw [afterWord, hline, (takeWhile_isWord_append hkw hhead).2] at hmark
    obtain ⟨g, hg, hs⟩ := exists_append_trimStart s
    rw [hmark] at hs
    obtain ⟨rest', hrest', _⟩ := exists_trimEnd_cons hblank rest
    have hend : trimEnd s = g ++ c :: rest' := by rw [hs, trimEnd_append_cons hblank, hrest']
    have htrim : trim line = d.ty.keyword ++ trimEnd s := by
      rw [trim, hline, hs, ← List.append_assoc, trimEnd_append_cons hblank,
        trimEnd_append_cons hblank, List.append_assoc]
    have hstart : trimStart (trim line) = trim line := by
      rw [htrim, hk]
      exact trimStart_cons hkb _
    have hmem := Declarator.mem_declarable_of_parse? hd
    constructor
    · have hkept : isLine (trim line) = isLine line := by
        rw [isLine_eq, isLine_eq, hstart, hline, htrim, Declarator.parse?_keyword hmem,
          Declarator.parse?_keyword hmem]
        simp only [trimEnd_trimEnd]
      exact hkept.trans h
    · refine ⟨rest', ?_⟩
      have hdrop := (takeWhile_isWord_gap hkw hg hword rest').2
      rw [afterWord, hstart, htrim, hend, hdrop, trimStart_append hg]
      exact trimStart_cons hblank rest'

/-- Trimmed, an ambiguous line is a declaration without clauses that could be read. -/
theorem Category.Ambiguous.of_trim {line : Text} (h : Ambiguous line) :
    of (trim line) = variableDeclaration ∧ Declaration.parse? (trim line) = none := by
  obtain ⟨c, rest, hc, hmark⟩ := h.exists_afterWord
  have hword : isWord c = false := by
    rcases hc with rfl | rfl <;> exact isWord_eq_false_of_ascii (by decide)
  obtain ⟨hline, rest', hmark'⟩ :=
    Declaration.exists_afterWord_trim h.exists_pair.1 hmark hword
  exact ⟨(admits_iff_of_eq (c := .variableDeclaration) (by simp) _).mp hline,
    Declaration.parse?_eq_none_of_mark hc hmark'⟩

/-- Every declaration of a legal program is read, by the survey outside every block and by the
inspection inside one. -/
theorem isSome_parse?_of_verify {lines : List Text} (h : verify lines = none) {raw : Text}
    (hraw : raw ∈ lines) (hc : of (trim raw) = variableDeclaration) :
    (Declaration.parse? (trim raw)).isSome := by
  have hs : isSkippable raw = false := isSkippable_eq_false_of_trim hc (by decide) (by decide)
  obtain ⟨k, hk⟩ := List.mem_iff_getElem?.mp hraw
  have hok : (Verifier.start.survey lines).failure = none :=
    (Outcome.failure_andThen_eq_none.mp h).1
  rw [verify, Verifier.run_eq hok, Outcome.failure_andThen_eq_none] at h
  have hto (j : Nat) : (Verifier.inspectionTo lines j).failure = none := by
    have hall := h.1
    rw [Verifier.inspectionTo, List.take_length] at hall
    exact @Outcome.failure_each_of_append _ _ _ _ _ (lines.take j) (lines.drop j)
      (by rwa [List.take_append_drop])
  have hread (pass : Pass) {e e' : Env} (hpass : (e.isGlobal && pass = .inspection) = false)
      (hres : (e.declareLine pass (trim raw)).result? = some e') :
      (Declaration.parse? (trim raw)).isSome := by
    cases hp : Declaration.parse? (trim raw) with
    | some d => rfl
    | none => simp [Env.declareLine_eq, hpass, hp] at hres
  cases hg : (Verifier.inspectionTo lines k).state.env.isGlobal with
  | true =>
      have hdepth : (Verifier.inspectionTo lines k).state.env.depth = 1 := of_decide_eq_true hg
      have hline := Verifier.surveyLine_of_depth hok hk hs (hto k) hdepth
      rw [Env.surveyLine, hc] at hline
      exact hread .survey (by simp) (Outcome.result?_eq_some_iff_eq_ok.mpr hline)
  | false =>
      have hres := Verifier.result?_inspect_succ hk hs (hto (k + 1))
      rw [Progress.result?_inspect] at hres
      obtain ⟨e', he', _⟩ := Option.map_eq_some_iff.mp hres
      rw [Env.inspectLine, hc] at he'
      refine hread .inspection ?_ he'
      show ((Verifier.inspectionTo lines k).state.env.isGlobal && _) = false
      rw [hg, Bool.false_and]

theorem not_ambiguous_of_verify {lines : List Text} (h : verify lines = none) {raw line : Text}
    (hraw : raw ∈ lines) (htrim : trim line = trim raw) : ¬ Ambiguous line := by
  intro hamb
  obtain ⟨hof, hnone⟩ := hamb.of_trim
  rw [htrim] at hof hnone
  have hsome := isSome_parse?_of_verify h hraw hof
  rw [hnone] at hsome
  exact absurd hsome (by decide)

/-- No grammar admits a comment.  Any other line is unknown if no grammar admits it, belongs to
the only category whose grammar does, or is a declaration that could also be a call or an
assignment; and the grammars can be tried in any order that has declarations before these two, and
in no other.  A line that two grammars admit is refused wherever it is read as a declaration, so
no legal program has one. -/
theorem grammars_overlap_in_refused_lines :
    (∀ line, isComment line → ∀ c : Category, c.admits line = false) ∧
      (∀ line, isComment line = false →
        (admitting line = [] ∧ of line = unknown) ∨
          (∃ c, admitting line = [c] ∧ of line = c) ∨
          ∃ c ∈ [methodCall, variableAssignment],
            admitting line = [variableDeclaration, c] ∧ of line = variableDeclaration) ∧
      (∀ order, order.Perm byPriority →
        ((∀ line, inOrder order line = of line) ↔
          [variableDeclaration, methodCall].Sublist order ∧
            [variableDeclaration, variableAssignment].Sublist order)) ∧
      (∀ line, Ambiguous line → ∀ (e : Env) (pass : Pass),
        e.declareLine pass line =
          if e.isGlobal ∧ pass = .inspection then .ok e else .fail e (.declarationSyntax line)) ∧
      ∀ lines, verify lines = none → ∀ raw ∈ lines, ¬ Ambiguous raw ∧ ¬ Ambiguous (trim raw) := by
  refine ⟨fun line hcomment c => ?_, fun line => admitting_cases, fun order => inOrder_eq_of_iff,
    fun line hamb e pass => ?_, fun lines h raw hraw => ?_⟩
  · rw [Bool.eq_false_iff]
    intro hc
    rw [isComment_eq_false_of_admits hc] at hcomment
    exact absurd hcomment (by decide)
  · obtain ⟨c, rest, hc, hmark⟩ := hamb.exists_afterWord
    simp [Env.declareLine_eq, Declaration.parse?_eq_none_of_mark hc hmark]
  · exact ⟨not_ambiguous_of_verify h hraw rfl,
      not_ambiguous_of_verify h hraw (trim_trim raw)⟩

/-- The text `int (n);` could be a call and `int = 1;` an assignment.  Both are declarations also
when the other grammars are tried in reverse. -/
theorem sampleMarks_are_refused :
    (∀ c : Category, c.admits "// n".toList = false) ∧
      admitting "int (n);".toList = [variableDeclaration, methodCall] ∧
      admitting "int = 1;".toList = [variableDeclaration, variableAssignment] ∧
      (∀ line, inOrder [variableDeclaration, returnStatement, variableAssignment, blockEnd,
        methodCall, conditionalBlockStart, methodDeclaration] line = of line) ∧
      Env.empty.declareLine .survey "int (n);".toList =
        .fail Env.empty (.declarationSyntax "int (n);".toList) ∧
      verify ["int n;".toList] = none ∧ ¬ Ambiguous "int n;".toList := by
  have hcall : Ambiguous "int (n);".toList :=
    ⟨variableDeclaration, methodCall, by decide, by decide +kernel, by decide +kernel⟩
  have hlegal : verify ["int n;".toList] = none := by decide +kernel
  obtain ⟨hcomment, _, horder, hrefused, habsent⟩ := grammars_overlap_in_refused_lines
  exact ⟨hcomment _ (by decide), by decide +kernel, by decide +kernel,
    (horder _ (by decide)).mpr (by decide), hrefused _ hcall Env.empty .survey, hlegal,
    (habsent _ hlegal _ List.mem_cons_self).1⟩

end SJava
