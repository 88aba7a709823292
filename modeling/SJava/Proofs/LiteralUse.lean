/-
Where a literal can stand.

A literal that fits a type can be given to a new variable of that type, assigned to one, or
passed to a parameter.  Three ways of reading a line are behind that.  Declarations and
assignments end a value at the next comma or semicolon, and calls end their arguments at the
next closing parenthesis, all of them also between quotes.  So it is these marks in a string
or a character that decide where it can stand, and nothing else does
(`literal_accepted_iff_no_mark`).
-/
import SJava.Proofs.Operations
import SJava.Proofs.Phrases
import SJava.Proofs.SymbolTables
import SJava.Proofs.Weakening

namespace SJava

open Text

namespace Env

/-- The line belongs to the category and the inspection accepts it, whether a return came
before it or not. -/
structure Accepts (e : Env) (c : Category) (line : Text) : Prop where
  category : Category.of line = c
  failure : ∀ afterReturn, (e.inspectLine afterReturn line).failure = none

instance (e : Env) (c : Category) (line : Text) : Decidable (e.Accepts c line) :=
  decidable_of_iff (Category.of line = c ∧
      ∀ afterReturn, (e.inspectLine afterReturn line).failure = none)
    ⟨fun h => ⟨h.1, h.2⟩, fun h => ⟨h.1, h.2⟩⟩

variable {e : Env} {t : Ty} {x v line : Text}

theorem accepts_iff {c : Category} {o : Outcome Fault Env} (hc : Category.of line = c)
    (ho : ∀ afterReturn, e.inspectLine afterReturn line = o) :
    e.Accepts c line ↔ o.failure = none :=
  ⟨fun h => ho false ▸ h.failure false, fun h => ⟨hc, fun afterReturn => ho afterReturn ▸ h⟩⟩

/-! ## Values -/

theorem isOk_checkValue_of_fits (hv : Literal.fits v t) : (e.checkValue t v).isOk :=
  isOk_checkValue_iff.mpr (Or.inl ⟨Literal.type_ne_unknown_of_fits hv, hv⟩)

/-- A quote that stays open is neither a literal nor a name. -/
theorem isOk_checkValue_open {q : Char} {s : Text} (hq : q = '"' ∨ q = '\'') (hs : q ∉ s) :
    (e.checkValue t (q :: s)).isOk = false := by
  rw [Bool.eq_false_iff]
  intro h
  rcases isOk_checkValue_iff.mp h with ⟨hlit, _⟩ | ⟨_, hname, _⟩
  · exact hs (Literal.mem_of_type_ne_unknown hq hlit)
  · rcases hq with rfl | rfl <;> simp [Name.isVariable] at hname

/-! ## Declarations -/

theorem failure_declareLine_iff (hin : e.isGlobal = false) :
    (e.declareLine .inspection line).failure = none ↔
      ∃ d, Declaration.parse? line = some d ∧ Clause.firstRepeated [] d.clauses = none ∧
        (Outcome.each (declareClause d.declarator) e d.clauses).failure = none := by
  simp only [declareLine_eq, hin, Bool.false_and, Bool.false_eq_true, if_false]
  cases Declaration.parse? line with
  | none => simp [Outcome.fail]
  | some d => cases hrep : Clause.firstRepeated [] d.clauses <;> simp [hrep, Outcome.fail]

theorem of_failure_each_declareClause {d : Declarator} {cs : List Clause}
    (h : (Outcome.each (declareClause d) e (⟨x, some v⟩ :: cs)).failure = none) :
    Name.isReserved x = false ∧ (e.checkValue d.ty v).isOk := by
  rw [← Outcome.isSome_result?_iff, Outcome.result?_each_cons, result?_declareClause] at h
  by_cases hr : Name.isReserved x = true
  · simp [hr] at h
  · refine ⟨Bool.eq_false_iff.mpr hr, ?_⟩
    by_cases hok : (e.checkValue d.ty v).isOk = true
    · exact hok
    · simp [hr, hok] at h

theorem accepts_initialized_iff (hin : e.isGlobal = false) (ht : t ∈ Ty.declarable)
    (hv : Literal.fits v t) (hline : '\n' ∉ v) (hx : Name.isVariable x)
    (hnew : e.declaresHere x = false) :
    e.Accepts .variableDeclaration (Declaration.initialized t x v) ↔
      Name.isReserved x = false ∧ ',' ∉ v ∧ ';' ∉ v := by
  have hcategory := Declaration.of_initialized ht hx hline
  have hinspect (afterReturn : Bool) : e.inspectLine afterReturn (Declaration.initialized t x v) =
      e.declareLine .inspection (Declaration.initialized t x v) := by
    rw [inspectLine, hcategory]
    rfl
  rw [accepts_iff hcategory hinspect, failure_declareLine_iff hin]
  constructor
  · rintro ⟨d, hd, _, heach⟩
    rw [Declaration.parse?_initialized_eq ht hx] at hd
    obtain ⟨cs, hcs, rfl⟩ := Option.map_eq_some_iff.mp hd
    by_cases hmark : ',' ∉ v ∧ ';' ∉ v
    · rw [Clause.parseAll?_equation hx hv hmark.1 hmark.2 hline] at hcs
      obtain rfl := Option.some.inj hcs
      exact ⟨(of_failure_each_declareClause heach).1, hmark⟩
    · -- The mark cuts the literal between its quotes, and what is left of it stays open.
      obtain ⟨q, s, cs', hq, hs, rfl⟩ :=
        Clause.exists_open_of_parseAll?_equation hx hv hline hmark hcs
      have hok := (of_failure_each_declareClause heach).2
      rw [isOk_checkValue_open hq hs] at hok
      exact absurd hok (by decide)
  · rintro ⟨hfree, hcomma, hsemi⟩
    refine ⟨_, Declaration.parse?_initialized ht hx hv hcomma hsemi hline, rfl, ?_⟩
    rw [← Outcome.isSome_result?_iff, Outcome.result?_each_singleton, result?_declareClause]
    simpa [hfree, isOk_checkValue_of_fits hv, Outcome.isSome_result?_iff] using
      failure_declare_of_declaresHere hnew t false true

/-! ## Assignments -/

theorem failure_assignLine_iff :
    (e.assignLine line).failure = none ↔
      ∃ cs, Assignment.parse? line = some cs ∧ Clause.firstRepeated [] cs = none ∧
        (Outcome.each (assignClause line) e cs).failure = none := by
  simp only [assignLine]
  cases Assignment.parse? line with
  | none => simp [Outcome.fail]
  | some cs => cases hrep : Clause.firstRepeated [] cs <;> simp [hrep, Outcome.fail]

/-- An assignment of one value to a variable that may have it. -/
theorem result?_assignClause {b : Binding} (hb : e.find? x = some b)
    (hfinal : b.info.isFinal = false) :
    (assignClause line e ⟨x, some v⟩).result? =
      if (e.checkValue b.info.ty v).isOk then (e.assign x).result? else none := by
  simp only [assignClause, hb, hfinal, Bool.false_eq_true, if_false]
  exact Outcome.result?_require _ _ _

theorem accepts_equation_iff (he : e.Proper) (hlayered : e.Layered) (hin : e.isGlobal = false)
    (hv : Literal.fits v t) (hline : '\n' ∉ v) {b : Binding} (hb : e.find? x = some b)
    (hfinal : b.info.isFinal = false) (hty : b.info.ty = t) :
    e.Accepts .variableAssignment (Clause.equation x v) ↔ ',' ∉ v ∧ ';' ∉ v := by
  have hproper := he.binding_of_find? hb
  have hname := name_of_find? hb
  have hx : Name.isVariable x := hname ▸ hproper.name
  have hcategory := Assignment.of_equation hx (hname ▸ hproper.free) hline
  have hinspect (afterReturn : Bool) :
      e.inspectLine afterReturn (Clause.equation x v) = e.assignLine (Clause.equation x v) := by
    rw [inspectLine, hcategory]
    show (if e.isGlobal then _ else _) = _
    rw [hin]
    rfl
  rw [accepts_iff hcategory hinspect, failure_assignLine_iff]
  constructor
  · rintro ⟨cs, hcs, _, heach⟩
    by_contra hmark
    obtain ⟨q, s, cs', hq, hs, rfl⟩ := Clause.exists_open_of_parseAll?_equation hx hv hline hmark
      (Assignment.parseAll?_of_parse? hcs)
    rw [← Outcome.isSome_result?_iff, Outcome.result?_each_cons, result?_assignClause hb hfinal,
      isOk_checkValue_open hq hs] at heach
    exact absurd heach (by simp)
  · rintro ⟨hcomma, hsemi⟩
    refine ⟨_, Assignment.parse?_equation hx hv hcomma hsemi hline, rfl, ?_⟩
    rw [← Outcome.isSome_result?_iff, Outcome.result?_each_singleton,
      result?_assignClause hb hfinal, hty, if_pos (isOk_checkValue_of_fits hv),
      Outcome.isSome_result?_iff]
    exact hlayered.failure_assign hb

/-! ## Calls -/

/-- The items of a list are checked as the arguments of a call. -/
theorem checkCall_line (hin : e.isGlobal = false) {m : Text} (hm : Name.isMethod m)
    {s : Signature} (hs : e.signature? m = some s) {vs ws : List Text}
    (hparen : ')' ∉ [','].intercalate vs) (hitems : items ([','].intercalate vs) = ws)
    (hne : ∀ w ∈ ws, w ≠ []) :
    e.checkCall (Call.line m vs) =
      if ws.length = s.arity then e.checkArguments s.parameters ws
      else .error (.methodArityMismatch m s.arity ws.length) := by
  have hempty : ws.any (·.isEmpty) = false := by simpa using hne
  have hsig : e.signature m = .ok s := by rw [signature, hs]
  rw [checkCall, Call.parse?_line hm, if_neg hparen]
  simp only [hin, hsig, hitems, hempty, Bool.false_eq_true, if_false, ite_not]

theorem isOk_checkCall_line_iff (hin : e.isGlobal = false) {m : Text} (hm : Name.isMethod m)
    {s : Signature} (hs : e.signature? m = some s) {vs : List Text}
    (hvs : ∀ v ∈ vs, isItem none v ∧ v.Bare) (hparen : ')' ∉ [','].intercalate vs) :
    (e.checkCall (Call.line m vs)).isOk ↔
      vs.length = s.arity ∧ (e.checkArguments s.parameters vs).isOk := by
  rw [checkCall_line hin hm hs hparen (items_intercalate hvs) fun v hv => (hvs v hv).2.ne_nil]
  split
  · next hlen => simp [hlen]
  · next hlen => simp [hlen]

/-- A call is accepted if its arguments can be told from the end of the list and each can be
passed to its parameter. -/
theorem accepts_line_iff (he : e.Proper) (hin : e.isGlobal = false) {m : Text} {s : Signature}
    (hs : e.signature? m = some s) {vs : List Text} (hvs : ∀ v ∈ vs, isItem none v ∧ v.Bare) :
    e.Accepts .methodCall (Call.line m vs) ↔
      (∀ v ∈ vs, ')' ∉ v) ∧ vs.length = s.arity ∧ (e.checkArguments s.parameters vs).isOk := by
  have hproper : s.Proper := he.methods s (List.mem_of_find?_eq_some hs)
  have hname : s.name = m := by simpa using List.find?_some hs
  have hm : Name.isMethod m := hname ▸ hproper.name
  have hparen : (∀ v ∈ vs, ')' ∉ v) ↔ ')' ∉ [','].intercalate vs := by
    simp [mem_intercalate_comma]
  rw [hparen]
  by_cases hmem : ')' ∈ [','].intercalate vs
  · refine iff_of_false (fun h => ?_) fun h => h.1 hmem
    have hadmits := Category.admits_of_of_eq h.category (by decide) (by decide)
    rw [Category.admits, Call.parse?_line hm, if_pos hmem] at hadmits
    exact absurd hadmits (by decide)
  · have hcategory := Call.of_line hm (hname ▸ hproper.free) hmem
    have hinspect (afterReturn : Bool) : e.inspectLine afterReturn (Call.line m vs) =
        Outcome.require e (e.checkCall (Call.line m vs)) (.ok e) := by
      rw [inspectLine, hcategory]
      rfl
    rw [accepts_iff hcategory hinspect, ← isOk_checkCall_line_iff hin hm hs hvs hmem]
    cases e.checkCall (Call.line m vs) <;> simp [hmem, Outcome.fail, Outcome.ok]

theorem accepts_line_literal_iff (he : e.Proper) (hin : e.isGlobal = false) (hv : Literal.fits v t)
    {m : Text} {s : Signature} (hs : e.signature? m = some s)
    (hparameters : s.parameters.map (·.ty) = [t]) :
    e.Accepts .methodCall (Call.line m [v]) ↔ ')' ∉ v := by
  obtain ⟨p, hp, rfl⟩ := List.map_eq_singleton_iff.mp hparameters
  have hvs : ∀ w ∈ [v], isItem none w ∧ w.Bare := by
    simpa using ⟨Literal.isItem_of_fits hv, Literal.bare_of_fits hv⟩
  have hok : (e.checkArguments s.parameters [v]).isOk := by
    rw [hp, isOk_checkArguments_iff]
    intro p' v' hmem
    obtain ⟨rfl, rfl⟩ : p' = p ∧ v' = v := by simpa using hmem
    exact isOk_checkArgument_iff.mpr (Or.inl ⟨Literal.type_ne_unknown_of_fits hv, hv⟩)
  have hlen : [v].length = s.arity := by simp [Signature.arity, hp]
  rw [accepts_line_iff he hin hs hvs]
  simp only [hok, hlen, and_true, List.forall_mem_singleton]

end Env

/-- Inside a method, at any point of an inspection, a literal that fits a type can initialize a
new variable of that type if and only if its text has no comma and no semicolon, and so it is
with the assignment to a variable; it can be passed to a parameter of the type if and only if
its text has no closing parenthesis. -/
theorem literal_accepted_iff_no_mark (source : Text) (k : Nat) {e : Env}
    (he : (Verifier.inspectionTo (Text.lines source) k).state.env = e)
    (hin : e.isGlobal = false) {t : Ty} (ht : t ∈ Ty.declarable) {v : Text}
    (hv : Literal.fits v t) (hline : '\n' ∉ v) :
    (∀ x, Name.isVariable x → e.declaresHere x = false →
      (e.Accepts .variableDeclaration (Declaration.initialized t x v) ↔
        Name.isReserved x = false ∧ ',' ∉ v ∧ ';' ∉ v)) ∧
    (∀ y b, e.find? y = some b → b.info.isFinal = false → b.info.ty = t →
      (e.Accepts .variableAssignment (Clause.equation y v) ↔ ',' ∉ v ∧ ';' ∉ v)) ∧
    (∀ m s, e.signature? m = some s → s.parameters.map (·.ty) = [t] →
      (e.Accepts .methodCall (Call.line m [v]) ↔ ')' ∉ v)) := by
  have hproper : e.Proper := he ▸ Verifier.proper_inspectionTo (Text.not_mem_of_mem_lines source) k
  have hlayered : e.Layered := he ▸ Verifier.layered_inspectionTo _ k
  refine ⟨fun x hx hnew => ?_, fun y b hb hfinal hty => ?_, fun m s hs hparameters => ?_⟩
  · exact Env.accepts_initialized_iff hin ht hv hline hx hnew
  · exact Env.accepts_equation_iff hproper hlayered hin hv hline hb hfinal hty
  · exact Env.accepts_line_literal_iff hproper hin hv hs hparameters

/-- The body of a method `m` with a parameter `s` for strings. -/
def sampleText : Text :=
  "void m(String s) \x7b\nreturn;\n\x7d\n".toList

/-- What is known on the first line of the body. -/
def sampleBody : Env :=
  (Verifier.inspectionTo (Text.lines sampleText) 1).state.env

theorem sampleBody_accepts_plain_string :
    sampleBody.Accepts .variableDeclaration
        (Declaration.initialized .string "x".toList "\"a(b = c\"".toList) ∧
      sampleBody.Accepts .variableAssignment
        (Clause.equation "s".toList "\"a(b = c\"".toList) ∧
      sampleBody.Accepts .methodCall (Call.line "m".toList ["\"a(b = c\"".toList]) := by
  have h := literal_accepted_iff_no_mark sampleText 1 (e := sampleBody) rfl (by decide +kernel)
    (t := .string) (by decide) (v := "\"a(b = c\"".toList) (by decide +kernel) (by decide)
  exact ⟨(h.1 "x".toList (by decide +kernel) (by decide +kernel)).mpr (by decide +kernel),
    (h.2.1 "s".toList ⟨"s".toList, ⟨.string, false, false⟩, true⟩ (by decide +kernel) rfl rfl).mpr
      (by decide),
    (h.2.2 "m".toList ⟨"m".toList, [⟨"s".toList, .string, false⟩]⟩ (by decide +kernel) rfl).mpr
      (by decide)⟩

/-- A string with a comma in it can be passed to a method and not stored in a variable. -/
theorem sampleBody_refuses_string_with_comma :
    Literal.fits "\"a,b\"".toList .string ∧
      sampleBody.Accepts .methodCall (Call.line "m".toList ["\"a,b\"".toList]) ∧
      sampleBody.declaresHere "x".toList = false ∧
      ¬ sampleBody.Accepts .variableDeclaration
        (Declaration.initialized .string "x".toList "\"a,b\"".toList) ∧
      ¬ sampleBody.Accepts .variableAssignment
        (Clause.equation "s".toList "\"a,b\"".toList) := by
  decide +kernel

end SJava
