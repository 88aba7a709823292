/-
A value for a global variable does no harm.

A line `t g;` outside every block may be replaced by `t g = v;`, where `v` is a literal that
fits the type.  Both lines declare `g` (`Declaration.parse?_initialized`), so from there on
the two surveys know the same methods and the same variables, and the second knows values
for at least as many of them (`Env.MoreValues`).  The survey keeps this, and the inspection
then knows more.
-/
import SJava.Proofs.Phrases
import SJava.Proofs.Segments
import SJava.Proofs.Weakening

namespace SJava

open Text Outcome

/-! ## Lines without a value -/

namespace Declaration

/-- The line declares the variable `g` of type `t` and no other: `t g;`, with white space
around its words. -/
def IsSingle (t : Ty) (g line : Text) : Prop :=
  ∃ gap gap', gap ≠ [] ∧ isBlankText gap ∧ isBlankText gap' ∧
    trim line = t.keyword ++ (gap ++ (g ++ gap' ++ [';']))

variable {t : Ty} {g v line : Text}

theorem IsSingle.parse? (h : IsSingle t g line) (ht : t ∈ Ty.declarable)
    (hg : Name.isVariable g) : parse? (trim line) = some ⟨⟨false, t⟩, [⟨g, none⟩]⟩ := by
  obtain ⟨gap, gap', hne, hgap, hgap', hline⟩ := h
  have hfirst : trimStart (g ++ gap' ++ [';']) = g ++ gap' ++ [';'] := by
    rw [List.append_assoc]
    exact (Name.bare_of_isVariable hg).trimStart_append _
  have hmem (a : Char) (hw : isWord a = false) (hb : isBlank a = false) : a ∉ g ++ gap' := by
    rw [List.mem_append]
    exact not_or.mpr ⟨Name.not_mem_of_isVariable hg hw, not_mem_of_isBlankText hgap' hb⟩
  rw [hline, parse?_keyword ht hne hgap hfirst,
    Clause.parseAll?_single (hmem ',' (isWord_eq_false_of_ascii (by decide)) (by decide))
      (hmem ';' (isWord_eq_false_of_ascii (by decide)) (by decide)), Clause.parse?_name hg hgap']
  rfl

end Declaration

/-! ## Surveys side by side -/

/-- The same variables, with values for at least as many of them. -/
def Frame.MoreValues (f f' : Frame) : Prop :=
  ∀ x, Option.Rel Binding.Below (f.find? x) (f'.find? x)

namespace Frame.MoreValues

variable {f f' : Frame} {x : Text}

theorem refl (f : Frame) : MoreValues f f := by
  intro x
  cases f.find? x with
  | none => exact .none
  | some b => exact .some (.refl b)

theorem findsBelow (h : MoreValues f f') : FindsBelow f.find? f'.find? := by
  intro x b hb
  have hx := h x
  rw [hb] at hx
  cases hb' : f'.find? x with
  | none =>
      rw [hb'] at hx
      cases hx
  | some b' =>
      rw [hb'] at hx
      cases hx with
      | some hbelow => exact ⟨b', rfl, hbelow⟩

theorem declares_eq (h : MoreValues f f') (x : Text) : f'.declares x = f.declares x := by
  have hx := h x
  rw [declares, declares]
  generalize f.find? x = b, f'.find? x = b' at hx
  cases hx <;> rfl

theorem of_ne {g g' : Frame} (h : MoreValues f f') (hg : ∀ y, y ≠ x → g.find? y = f.find? y)
    (hg' : ∀ y, y ≠ x → g'.find? y = f'.find? y)
    (hx : Option.Rel Binding.Below (g.find? x) (g'.find? x)) : MoreValues g g' := by
  intro y
  by_cases hy : y = x
  · subst hy
    exact hx
  · rw [hg y hy, hg' y hy]
    exact h y

theorem declare (h : MoreValues f f') (hx : f.declares x = false) (v : Variable) {i i' : Bool}
    (hi : i → i') : MoreValues (f.declare x v i).state (f'.declare x v i').state := by
  have hx' : f'.declares x = false := (h.declares_eq x).trans hx
  refine h.of_ne (fun y hy => find?_declare_of_ne hy v i) (fun y hy => find?_declare_of_ne hy v i')
    ?_
  rw [find?_declare_self hx, find?_declare_self hx']
  exact .some ⟨rfl, hi⟩

theorem assign (h : MoreValues f f') (x : Text) : MoreValues (f.assign x) (f'.assign x) := by
  refine h.of_ne (fun y hy => find?_assign_of_ne hy) (fun y hy => find?_assign_of_ne hy) ?_
  have hx := h x
  rw [find?_assign_self, find?_assign_self]
  generalize f.find? x = b, f'.find? x = b' at hx
  cases hx with
  | none => exact .none
  | some hbelow => exact .some ⟨hbelow.info, fun _ => rfl⟩

/-- An assignment of a value that is known already. -/
theorem assign_left (h : MoreValues f f') {b' : Binding} (hb' : f'.find? x = some b')
    (hi : b'.isInitialized) : MoreValues (f.assign x) f' := by
  refine h.of_ne (fun y hy => find?_assign_of_ne hy) (fun _ _ => rfl) ?_
  have hx := h x
  rw [find?_assign_self, hb']
  rw [hb'] at hx
  generalize f.find? x = b at hx
  cases hx with
  | some hbelow => exact .some ⟨hbelow.info, fun _ => hi⟩

end Frame.MoreValues

namespace Env

/-- Two environments outside every block that differ in nothing but values, of which `e'` has
at least those of `e`. -/
structure MoreValues (e e' : Env) : Prop where
  atTop : e.AtTop
  atTop_right : e'.AtTop
  methods : e'.methods = e.methods
  globals : e.globals.MoreValues e'.globals

namespace MoreValues

variable {e e' : Env}

theorem refl (he : e.AtTop) : MoreValues e e := ⟨he, he, rfl, .refl _⟩

theorem below (h : MoreValues e e') : e.Below e' := by
  refine .of_locals_eq_nil (fun m s hs => ?_) h.globals.findsBelow h.atTop.locals h.atTop_right
  rw [signature?, h.methods]
  exact hs

/-- The same variable, which may get its value in the richer environment alone. -/
theorem declare (h : MoreValues e e') (x : Text) (ty : Ty) (isFinal : Bool) {i i' : Bool}
    (hi : i → i') :
    MatchedBy MoreValues (e.declare x ty isFinal i) (e'.declare x ty isFinal i') := by
  intro t ht
  obtain ⟨hx, rfl⟩ := result?_declare_nil h.atTop.locals ht
  have hx' : e'.globals.declares x = false := (h.globals.declares_eq x).trans hx
  have hatTop := h.atTop.declare x ty isFinal i
  have hatTop' := h.atTop_right.declare x ty isFinal i'
  have hok : (e'.declare x ty isFinal i').result? = some (e'.declare x ty isFinal i').state := by
    simp [Env.declare, h.atTop_right.locals, Frame.declare, hx', ok, result?, Outcome.map]
  refine ⟨_, hok, ?_⟩
  rw [Env.declare, h.atTop.locals] at hatTop
  rw [Env.declare, h.atTop_right.locals] at hatTop' ⊢
  exact ⟨⟨h.atTop.locals, hatTop.allGlobal⟩, hatTop', h.methods,
    h.globals.declare hx ⟨ty, isFinal, true⟩ hi⟩

theorem assign (h : MoreValues e e') (x : Text) :
    MatchedBy MoreValues (e.assign x) (e'.assign x) := by
  cases hb : e.find? x with
  | none =>
      rw [assign_of_find?_eq_none hb]
      exact .fail _
  | some b =>
      obtain ⟨b', hb', hbelow⟩ := h.below.finds x b hb
      cases hi' : b'.isInitialized with
      | true =>
          rw [assign_of_isInitialized hb' hi']
          cases hi : b.isInitialized with
          | true =>
              rw [assign_of_isInitialized hb hi]
              exact .ok h
          | false =>
              rw [assign_of_locals_eq_nil h.atTop.locals hb hi]
              rw [find?_of_locals_eq_nil h.atTop_right.locals] at hb'
              exact .ok ⟨⟨h.atTop.locals, h.atTop.allGlobal.assign x⟩, h.atTop_right, h.methods,
                h.globals.assign_left hb' hi'⟩
      | false =>
          have hi : b.isInitialized = false :=
            Bool.eq_false_iff.mpr fun hi => by simp [hbelow.isInitialized hi] at hi'
          rw [assign_of_locals_eq_nil h.atTop.locals hb hi,
            assign_of_locals_eq_nil h.atTop_right.locals hb' hi']
          exact .ok ⟨⟨h.atTop.locals, h.atTop.allGlobal.assign x⟩,
            ⟨h.atTop_right.locals, h.atTop_right.allGlobal.assign x⟩, h.methods,
            h.globals.assign x⟩

theorem aligned : Aligned MoreValues where
  isGlobal h := h.below.isGlobal
  finds h := h.below.finds
  declare h x ty isFinal _ := h.declare x ty isFinal id
  assign h := h.assign

theorem headerLine (h : MoreValues e e') (line : Text) :
    MatchedBy MoreValues (e.headerLine .survey line) (e'.headerLine .survey line) := by
  intro t ht
  rw [result?_headerLine_survey h.atTop.locals] at ht
  obtain ⟨hd, hhd, ht⟩ := Option.bind_eq_some_iff.mp ht
  rw [result?_headerLine_survey h.atTop_right.locals, hhd, Option.bind_some]
  cases hs : hd.signature with
  | error fault => simp [hs] at ht
  | ok s =>
      simp only [hs, Option.ite_none_right_eq_some, Option.some.injEq] at ht ⊢
      obtain ⟨hnone, rfl⟩ := ht
      have hnone' : e'.signature? s.name = none := by
        rw [signature?, h.methods]
        exact hnone
      refine ⟨_, ⟨hnone', rfl⟩, ⟨h.atTop.locals, h.atTop.allGlobal⟩,
        ⟨h.atTop_right.locals, h.atTop_right.allGlobal⟩, ?_, h.globals⟩
      show s :: e'.methods = s :: e.methods
      rw [h.methods]

theorem surveyLine (h : MoreValues e e') (line : Text) :
    MatchedBy MoreValues (e.surveyLine line) (e'.surveyLine line) := by
  unfold Env.surveyLine
  split
  · exact h.headerLine line
  · exact aligned.declareLine h .survey line
  · exact aligned.assignLine h line
  · exact .ok h

end MoreValues
end Env

namespace Progress

/-- The same point of a survey, with more values known at it. -/
structure MoreValues (p p' : Progress) : Prop where
  env : p.env.MoreValues p'.env
  nesting : p'.nesting = p.nesting

theorem MoreValues.survey {p p' : Progress} (h : p.MoreValues p') (line : Text) :
    MatchedBy MoreValues (p.survey line) (p'.survey line) := by
  intro q hq
  rw [result?_survey] at hq ⊢
  obtain ⟨t, ht, rfl⟩ := Option.map_eq_some_iff.mp hq
  rw [h.nesting]
  by_cases hn : p.nesting = 0
  · rw [if_pos hn] at ht ⊢
    obtain ⟨t', ht', hmore⟩ := h.env.surveyLine line t ht
    rw [ht']
    exact ⟨_, rfl, hmore, rfl⟩
  · rw [if_neg hn] at ht ⊢
    obtain rfl := Option.some.inj ht
    exact ⟨_, rfl, h.env, rfl⟩

/-! ## The line replaced -/

/-- After lines that leave no block open, the inspection starts afresh. -/
theorem result?_each_inspect_append {e : Env} (he : e.AtTop) {before : List Text}
    (hb : blockChange before = 0) (rest : List Text) :
    (each inspect ⟨e, 0, false⟩ (before ++ rest)).result? =
      if (each inspect ⟨e, 0, false⟩ before).result?.isSome then
        (each inspect ⟨e, 0, false⟩ rest).result?
      else none := by
  rw [result?_each_append]
  cases h : (each inspect ⟨e, 0, false⟩ before).result? with
  | none => rfl
  | some q =>
      have hlen := length_each_inspect (p := ⟨e, 0, false⟩) he.allGlobal h
      rw [hb, he.locals, List.length_nil] at hlen
      obtain rfl := eq_of_each_inspect he h (List.length_eq_zero_iff.mp (by omega))
      rfl

/-- The inspection passes over the global declarations. -/
theorem result?_each_inspect_declaration {e : Env} (he : e.AtTop) {line : Text}
    (hc : Category.of line = .variableDeclaration) (rest : List Text) :
    (each inspect ⟨e, 0, false⟩ (line :: rest)).result? =
      (each inspect ⟨e, 0, false⟩ rest).result? := by
  have hline : ((⟨e, 0, false⟩ : Progress).inspect line).result? = some ⟨e, 0, false⟩ := by
    rw [result?_inspect, Env.inspectLine, hc]
    simp [Rule.standard, Rule.apply, Env.declareLine, Env.isGlobal_eq_true he.locals]
  rw [result?_each_cons, hline]
  rfl

end Progress

namespace Declaration

variable {t : Ty} {g v line : Text}

theorem IsSingle.firstMark_eq (h : IsSingle t g line) : ∃ c, firstMark line = some c ∧ c ≠ '/' := by
  obtain ⟨gap, gap', _, _, _, hline⟩ := h
  obtain ⟨c, w, hk, hb, hc, _⟩ := t.keyword_eq_cons
  refine ⟨c, ?_, hc⟩
  rw [← firstMark_trim, hline, hk]
  exact firstMark_cons hb _

theorem IsSingle.lastMark_eq (h : IsSingle t g line) : lastMark (trim line) = some ';' := by
  obtain ⟨gap, gap', _, _, _, hline⟩ := h
  rw [hline]
  refine lastMark_append_of_eq_some (lastMark_append_of_eq_some ?_ _) _
  exact lastMark_append_of_eq_some (by decide) _

/-- Where no block is open, such a line is accepted as a declaration or not at all. -/
theorem IsSingle.of_trim (h : IsSingle t g line) (ht : t ∈ Ty.declarable)
    (hg : Name.isVariable g) {e : Env} (he : e.AtTop) {rest : List Text}
    (hi : (each Progress.inspect ⟨e, 0, false⟩ (trim line :: rest)).result?.isSome) :
    Category.of (trim line) = .variableDeclaration := by
  obtain ⟨q, hq⟩ := Option.isSome_iff_exists.mp hi
  obtain ⟨p, hmoves, _⟩ :=
    Progress.exists_of_each_inspect_cons (p := ⟨e, 0, false⟩) he.allGlobal hq
  rw [he.locals, List.length_nil] at hmoves
  cases hc : Category.of (trim line) with
  | variableDeclaration => rfl
  | variableAssignment =>
      have hnone := parse?_eq_none (Category.admits_of_of_eq hc (by decide) (by decide))
      rw [h.parse? ht hg] at hnone
      exact absurd hnone (by simp)
  | methodDeclaration =>
      have hlast := Category.lastMark_of_admits
        (Category.admits_of_of_eq hc (by decide) (by decide))
      rw [h.lastMark_eq] at hlast
      exact absurd hlast (by decide)
  | illegalComment | unknown | methodCall | returnStatement | conditionalBlockStart | blockEnd =>
      rw [hc] at hmoves
      simp [Category.Moves] at hmoves

end Declaration

namespace Env

theorem result?_declareLine_single {e : Env} {line : Text} {d : Declarator} {c : Clause}
    (h : Declaration.parse? line = some ⟨d, [c]⟩) :
    (e.declareLine .survey line).result? = (declareClause d e c).result? := by
  simp [declareLine_eq, h, Clause.firstRepeated, result?_each_singleton]

/-- The two lines declare the same variable. -/
theorem MoreValues.initialized {e : Env} (he : e.AtTop) {t : Ty} (ht : t ∈ Ty.declarable)
    {g v : Text} (hg : Name.isVariable g) (hv : Literal.fits v t) (hcomma : ',' ∉ v)
    (hsemi : ';' ∉ v) (hfeed : '\n' ∉ v) {line : Text}
    (hline : Declaration.IsSingle t g line) :
    MatchedBy MoreValues (e.declareLine .survey (trim line))
      (e.declareLine .survey (Declaration.initialized t g v)) := by
  intro u hu
  rw [result?_declareLine_single (hline.parse? ht hg), result?_declareClause] at hu
  rw [result?_declareLine_single (Declaration.parse?_initialized ht hg hv hcomma hsemi hfeed),
    result?_declareClause]
  by_cases hr : Name.isReserved g = true
  · simp [hr] at hu
  · have hok : (e.checkValue t v).isOk :=
      isOk_checkValue_iff.mpr (Or.inl ⟨Literal.type_ne_unknown_of_fits hv, hv⟩)
    simp only [hr, Bool.false_eq_true, if_false] at hu
    simp only [hr, hok, Bool.false_eq_true, if_false, if_true]
    exact (MoreValues.refl he).declare g t false (by simp) u hu

end Env

/-- Survey and inspection go over a line of a global declaration, and another one that
declares at least as much, alike. -/
theorem Progress.Accepts.replace {before after : List Text} {line line' : Text}
    (htop : blockChange before = 0) (hc : Category.of line = .variableDeclaration)
    (hc' : Category.of line' = .variableDeclaration)
    (hdeclare : ∀ e : Env, e.AtTop → MatchedBy Env.MoreValues (e.declareLine .survey line)
      (e.declareLine .survey line'))
    (h : Accepts (before ++ line :: after)) : Accepts (before ++ line' :: after) := by
  obtain ⟨p, hs, hn, hi⟩ := h
  have hp : p.env.AtTop := atTop_of_survey hs
  -- The surveys agree up to the line, and what they make of it stays related to the end.
  obtain ⟨p', hs', hmore⟩ : ∃ p', (each survey start (before ++ line' :: after)).result? = some p' ∧
      p.MoreValues p' := by
    rw [result?_each_append] at hs ⊢
    obtain ⟨p₀, hs₀, hs⟩ := Option.bind_eq_some_iff.mp hs
    have hn₀ : p₀.nesting = 0 := by
      rw [nesting_each_survey hs₀, htop]
      rfl
    have htop₀ : p₀.env.AtTop := atTop_of_survey hs₀
    rw [result?_each_cons, result?_survey, if_pos hn₀, Env.surveyLine, hc] at hs
    obtain ⟨p₁, hs₁, hs⟩ := Option.bind_eq_some_iff.mp hs
    obtain ⟨e₁, he₁, rfl⟩ := Option.map_eq_some_iff.mp hs₁
    obtain ⟨e₁', he₁', hmore⟩ := hdeclare p₀.env htop₀ e₁ he₁
    rw [hs₀, Option.bind_some, result?_each_cons, result?_survey, if_pos hn₀, Env.surveyLine, hc',
      he₁', Option.map_some, Option.bind_some]
    exact MatchedBy.each (fun _ _ l hq => hq.survey l) ⟨hmore, rfl⟩ after p hs
  refine ⟨p', hs', hmore.nesting.trans hn, ?_⟩
  have hp' := hmore.env.atTop_right
  -- The inspection passes over either line, so it is the other lines that have to be followed.
  have hrest : (each inspect ⟨p.env, 0, false⟩ (before ++ after)).result?.isSome := by
    rw [result?_each_inspect_append hp htop, result?_each_inspect_declaration hp hc,
      ← result?_each_inspect_append hp htop] at hi
    exact hi
  obtain ⟨q, hq⟩ := Option.isSome_iff_exists.mp hrest
  obtain ⟨q', hq', _⟩ := (Below.of_env hmore.env.below).each_inspect (before ++ after) q hq
  rw [result?_each_inspect_append hp' htop, result?_each_inspect_declaration hp' hc',
    ← result?_each_inspect_append hp' htop, hq']
  rfl

/-- In an accepted program, a line outside every block that declares one variable without a
value can be replaced by one that gives it a literal of its type.  A line is outside every
block if the lines before it close as many blocks as they open. -/
theorem verify_initialized {t : Ty} (ht : t ∈ Ty.declarable) {g v : Text}
    (hg : Name.isVariable g) (hv : Literal.fits v t) (hcomma : ',' ∉ v) (hsemi : ';' ∉ v)
    (hfeed : '\n' ∉ v) {before after : List Text} {line : Text}
    (hline : Declaration.IsSingle t g line) (htop : blockChange (significant before) = 0)
    (h : verify (before ++ line :: after) = none) :
    verify (before ++ Declaration.initialized t g v :: after) = none := by
  have hc' := Declaration.of_initialized ht hg hfeed
  have htrim := Declaration.trim_initialized t g v
  obtain ⟨c, hfirst, hslash⟩ := hline.firstMark_eq
  rw [verify_eq_none_iff, significant_append,
    significant_cons (isSkippable_eq_false_of_firstMark hfirst hslash)] at h
  rw [verify_eq_none_iff, significant_append,
    significant_cons (isSkippable_eq_false_of_trim (htrim.symm ▸ hc') (by decide) (by decide)),
    htrim]
  have hc : Category.of (trim line) = .variableDeclaration := by
    obtain ⟨p, hs, _, hi⟩ := h
    have hp : p.env.AtTop := Progress.atTop_of_survey hs
    rw [Progress.result?_each_inspect_append hp htop] at hi
    split at hi
    · exact hline.of_trim ht hg hp hi
    · simp at hi
  exact h.replace htop hc hc' fun e he =>
    Env.MoreValues.initialized he ht hg hv hcomma hsemi hfeed hline

def sampleBefore : List Text :=
  ["int h = 3;".toList, "void k() \x7b".toList, "  g = \"\";".toList, "  return;".toList,
    "\x7d".toList]

/-- Methods that give the variable a value before they use it. -/
def sampleAfter : List Text :=
  ["void m(String s) \x7b".toList, "  if (h) \x7b".toList, "    g = s;".toList,
    "    m(g);".toList, "  \x7d".toList, "  k();".toList, "  return;".toList, "\x7d".toList]

theorem verify_sample_initialized :
    Declaration.IsSingle .string "g".toList "\tString  g ;".toList ∧
      Literal.fits "\"a = b\"".toList .string ∧ blockChange (significant sampleBefore) = 0 ∧
      verify (sampleBefore ++ "\tString  g ;".toList :: sampleAfter) = none ∧
      Declaration.initialized .string "g".toList "\"a = b\"".toList =
        "String g = \"a = b\";".toList ∧
      verify (sampleBefore ++
        Declaration.initialized .string "g".toList "\"a = b\"".toList :: sampleAfter) = none :=
  have hline : Declaration.IsSingle .string "g".toList "\tString  g ;".toList :=
    ⟨"  ".toList, " ".toList, by decide, by decide, by decide, by decide⟩
  have hv : Literal.fits "\"a = b\"".toList .string := by decide
  have htop : blockChange (significant sampleBefore) = 0 := by decide +kernel
  have h : verify (sampleBefore ++ "\tString  g ;".toList :: sampleAfter) = none := by
    decide +kernel
  ⟨hline, hv, htop, h, by decide,
    verify_initialized (by decide) (by decide) hv (by decide) (by decide) (by decide) hline htop h⟩

end SJava
