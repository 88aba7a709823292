/-
What a call asks of its arguments.

An argument is a literal that fits its parameter or a variable of exactly the type of the
parameter (`Env.Conforms`).  A literal can have commas of its own between its quotes, so that the
arguments that are checked are those that were written, one for each parameter, is a fact about
the list that stands between the parentheses.  The value of an assignment is checked by rules of
its own, in another order and with wider types.  These rules refuse nothing that can be passed as
an argument, because the names of variables are names and their types are known.
-/
import SJava.Proofs.Joining
import SJava.Proofs.Reading

namespace SJava

open Text

/-! ## Calls as they are written -/

namespace Text

/-- A text that can be told from the other arguments of a call and from its end. -/
structure IsArgument (v : Text) : Prop extends IsListItem v where
  ne_nil : v ≠ []
  noParenthesis : ')' ∉ v

/-- The texts with a space before each of them but the first. -/
def spaceOut : List Text → List Text
  | [] => []
  | v :: vs => v :: vs.map (' ' :: ·)

theorem intercalate_cons_space (sep v : Text) (vs : List Text) :
    sep.intercalate ((' ' :: v) :: vs) = ' ' :: sep.intercalate (v :: vs) := by
  cases vs with
  | nil => simp
  | cons w ws => simp [List.intercalate_cons_cons]

theorem intercalate_spaceOut (vs : List Text) :
    [','].intercalate (spaceOut vs) = [',', ' '].intercalate vs := by
  cases vs with
  | nil => rfl
  | cons v vs =>
      rw [spaceOut]
      induction vs generalizing v with
      | nil => simp
      | cons w ws ih =>
          rw [List.map_cons, List.intercalate_cons_cons, intercalate_cons_space, ih,
            List.intercalate_cons_cons]
          simp

theorem padded_spaceOut (vs : List Text) : List.Forall₂ Padded vs (spaceOut vs) := by
  cases vs with
  | nil => exact .nil
  | cons v vs =>
      refine .cons ⟨[], [], rfl, rfl, by simp⟩ (List.forall₂_map_right_iff.mpr ?_)
      exact List.forall₂_same.mpr fun w _ => ⟨[' '], [], by decide, rfl, by simp⟩

theorem not_mem_of_mem_spaceOut {c : Char} (hc : c ≠ ' ') {vs : List Text} (hvs : ∀ v ∈ vs, c ∉ v) :
    ∀ w ∈ spaceOut vs, c ∉ w := by
  cases vs with
  | nil => simp [spaceOut]
  | cons v vs =>
      rw [List.forall_mem_cons] at hvs
      refine List.forall_mem_cons.mpr ⟨hvs.1, fun w hw => ?_⟩
      obtain ⟨u, hu, rfl⟩ := List.mem_map.mp hw
      exact List.not_mem_cons_of_ne_of_not_mem hc (hvs.2 u hu)

end Text

/-- The line `m(v, …);` with a space after each comma. -/
def Call.written (m : Text) (vs : List Text) : Text :=
  m ++ '(' :: ([',', ' '].intercalate vs ++ [')', ';'])

/-! ## Arguments and parameters -/

namespace Env

variable {e : Env}

/-- The argument is a literal that fits the type, or it is no literal and the innermost variable
of this name has a value and exactly the type. -/
def Conforms (e : Env) (t : Ty) (v : Text) : Prop :=
  Literal.type v ≠ .unknown ∧ Literal.fits v t ∨ Literal.type v = .unknown ∧ e.Holds t v

/-- What is wrong with an argument that does not conform. -/
inductive ArgumentFault (e : Env) (t : Ty) (v : Text) : Fault → Prop where
  | literal : Literal.type v ≠ .unknown → Literal.fits v t = false →
      ArgumentFault e t v (.methodArgumentTypeMismatch t.keyword v)
  | undeclared : Literal.type v = .unknown → e.find? v = none →
      ArgumentFault e t v (.variableNotDeclared v)
  | valueless {b : Binding} : Literal.type v = .unknown → e.find? v = some b →
      b.isInitialized = false → ArgumentFault e t v (.variableUninitializedUse v)
  | mismatch {b : Binding} : Literal.type v = .unknown → e.find? v = some b →
      b.isInitialized → b.info.ty ≠ t →
      ArgumentFault e t v (.methodArgumentTypeMismatch t.keyword b.info.ty.keyword)

/-- The fault of the first argument that does not conform to its parameter. -/
inductive FirstFault (e : Env) (fault : Fault) : List Parameter → List Text → Prop where
  | here {p : Parameter} {v : Text} {ps : List Parameter} {vs : List Text} :
      e.ArgumentFault p.ty v fault → FirstFault e fault (p :: ps) (v :: vs)
  | later {p : Parameter} {v : Text} {ps : List Parameter} {vs : List Text} :
      e.Conforms p.ty v → FirstFault e fault ps vs → FirstFault e fault (p :: ps) (v :: vs)

theorem checkArgument_eq_ok_iff {t : Ty} {v : Text} :
    e.checkArgument t v = .ok () ↔ e.Conforms t v := by
  rw [Conforms, Holds, ← isOk_checkArgument_iff]
  cases e.checkArgument t v <;> simp

theorem checkArgument_eq_error_iff {t : Ty} {v : Text} {fault : Fault} :
    e.checkArgument t v = .error fault ↔ e.ArgumentFault t v fault := by
  constructor
  · intro h
    unfold checkArgument at h
    split at h
    · next hlit =>
      split at h
      · simp at h
      · next hfits =>
        obtain rfl := Except.error.inj h
        exact .literal hlit (Bool.eq_false_iff.mpr hfits)
    · next hlit =>
      rw [not_not] at hlit
      split at h
      · next hb =>
        obtain rfl := Except.error.inj h
        exact .undeclared hlit hb
      · next b hb =>
        split at h
        · next hi =>
          obtain rfl := Except.error.inj h
          exact .valueless hlit hb (by simpa using hi)
        · next hi =>
          split at h
          · simp at h
          · next hty =>
            obtain rfl := Except.error.inj h
            exact .mismatch hlit hb (by simpa using hi) hty
  · intro h
    cases h with
    | literal hlit hfits => simp [checkArgument, hlit, hfits]
    | undeclared hlit hb => simp [checkArgument, hlit, hb]
    | valueless hlit hb hi => simp [checkArgument, hlit, hb, hi]
    | mismatch hlit hb hi hty => simp [checkArgument, hlit, hb, hi, hty]

theorem checkArguments_eq_ok_iff {ps : List Parameter} {vs : List Text}
    (hlen : vs.length = ps.length) :
    e.checkArguments ps vs = .ok () ↔ List.Forall₂ (fun p v => e.Conforms p.ty v) ps vs := by
  have hok : e.checkArguments ps vs = .ok () ↔ (e.checkArguments ps vs).isOk := by
    cases e.checkArguments ps vs <;> simp
  rw [hok, isOk_checkArguments_iff, List.forall₂_iff_zip, and_iff_right hlen.symm]
  simp only [Conforms, Holds, isOk_checkArgument_iff]

theorem checkArguments_eq_error_iff {ps : List Parameter} {vs : List Text} {fault : Fault} :
    e.checkArguments ps vs = .error fault ↔ e.FirstFault fault ps vs := by
  constructor
  · intro h
    induction ps generalizing vs with
    | nil => simp [checkArguments] at h
    | cons p ps ih =>
        cases vs with
        | nil => simp [checkArguments] at h
        | cons v vs =>
            rw [checkArguments] at h
            cases hv : e.checkArgument p.ty v with
            | error fault' =>
                rw [hv] at h
                obtain rfl := Except.error.inj h
                exact .here (checkArgument_eq_error_iff.mp hv)
            | ok u =>
                rw [hv] at h
                exact .later (checkArgument_eq_ok_iff.mp hv) (ih h)
  · intro h
    induction h with
    | here hv => rw [checkArguments, checkArgument_eq_error_iff.mpr hv]
    | later hv _ ih => rw [checkArguments, checkArgument_eq_ok_iff.mpr hv, ih]

theorem checkCall_written {m : Text} {s : Signature} {vs : List Text} (hin : 2 ≤ e.depth)
    (hm : Name.isMethod m) (hs : e.signature? m = some s) (hvs : ∀ v ∈ vs, v.IsArgument) :
    e.checkCall (Call.written m vs) =
      if vs.length = s.arity then e.checkArguments s.parameters vs
      else .error (.methodArityMismatch m s.arity vs.length) := by
  have hline : Call.written m vs = Call.line m (spaceOut vs) := by
    rw [Call.written, Call.line, intercalate_spaceOut]
  have hparen : ')' ∉ [','].intercalate (spaceOut vs) := by
    rw [mem_intercalate_comma (by decide)]
    intro ⟨w, hw, hmem⟩
    exact not_mem_of_mem_spaceOut (by decide) (fun v hv => (hvs v hv).noParenthesis) w hw hmem
  have hitems : items ([','].intercalate (spaceOut vs)) = vs := by
    refine items_of_padded (fun v hv => (hvs v hv).toIsListItem) ?_ (padded_spaceOut vs)
    rintro rfl
    exact (hvs [] List.mem_cons_self).ne_nil rfl
  rw [hline]
  exact checkCall_line (isGlobal_eq_false_iff.mpr hin) hm hs hparen hitems
    fun v hv => (hvs v hv).ne_nil

/-- Inside a method, a call of a known method is accepted if and only if there is one argument for
each parameter and each conforms to its parameter.  A wrong number of arguments is reported
before anything that is wrong with one of them, and otherwise the first argument that does not
conform is. -/
theorem call_accepted_iff_conforms {m : Text} {s : Signature} {vs : List Text}
    (hin : 2 ≤ e.depth) (hm : Name.isMethod m) (hs : e.signature? m = some s)
    (hvs : ∀ v ∈ vs, v.IsArgument) :
    (e.checkCall (Call.written m vs) = .ok () ↔
      vs.length = s.arity ∧ List.Forall₂ (fun p v => e.Conforms p.ty v) s.parameters vs) ∧
    (vs.length ≠ s.arity →
      e.checkCall (Call.written m vs) = .error (.methodArityMismatch m s.arity vs.length)) ∧
    (vs.length = s.arity → ∀ fault,
      e.checkCall (Call.written m vs) = .error fault ↔ e.FirstFault fault s.parameters vs) := by
  rw [checkCall_written hin hm hs hvs]
  refine ⟨?_, ?_, ?_⟩
  · split
    · next hlen => rw [checkArguments_eq_ok_iff hlen, and_iff_right hlen]
    · next hlen => simp [hlen]
  · intro hlen
    rw [if_neg hlen]
  · intro hlen fault
    rw [if_pos hlen]
    exact checkArguments_eq_error_iff

end Env

/-- The body of a method `f` with a number and a string for parameters, which has a number `n`. -/
def sampleCallSite : Env :=
  ⟨[⟨"f".toList, [⟨"a".toList, .int, false⟩, ⟨"b".toList, .string, true⟩]⟩], Frame.empty none,
    [⟨some 0, [⟨"n".toList, ⟨.int, false, false⟩, true⟩]⟩]⟩

theorem sampleCallSite_accepts_comma_in_string :
    Call.written "f".toList ["n".toList, "\"a, 'b\"".toList] = "f(n, \"a, 'b\");".toList ∧
      sampleCallSite.checkCall "f(n, \"a, 'b\");".toList = .ok () ∧
      sampleCallSite.checkCall "f(\"a, 'b\", n);".toList =
        .error (.methodArgumentTypeMismatch "int".toList "\"a, 'b\"".toList) ∧
      sampleCallSite.checkCall "f(n);".toList = .error (.methodArityMismatch "f".toList 2 1) := by
  have hn : Text.IsArgument "n".toList := ⟨by decide, by decide, by decide⟩
  have hstring : Text.IsArgument "\"a, 'b\"".toList := ⟨by decide, by decide, by decide⟩
  have hname : Name.isMethod "f".toList := by decide +kernel
  have hlit : Literal.type "n".toList = .unknown := by decide +kernel
  have hcall (vs : List Text) (hvs : ∀ v ∈ vs, v.IsArgument) :=
    Env.call_accepted_iff_conforms (e := sampleCallSite) (by decide) hname rfl hvs
  refine ⟨rfl, ?_, ?_, ?_⟩
  · refine (hcall ["n".toList, "\"a, 'b\"".toList]
      (List.forall_mem_cons.mpr ⟨hn, List.forall_mem_singleton.mpr hstring⟩)).1.mpr
      ⟨rfl, .cons (Or.inr ⟨hlit, _, rfl, rfl, rfl⟩) (.cons (Or.inl ?_) .nil)⟩
    decide +kernel
  · refine ((hcall ["\"a, 'b\"".toList, "n".toList]
      (List.forall_mem_cons.mpr ⟨hstring, List.forall_mem_singleton.mpr hn⟩)).2.2 rfl _).mpr
      (.here (.literal ?_ ?_))
    · decide +kernel
    · decide +kernel
  · exact (hcall ["n".toList] (List.forall_mem_singleton.mpr hn)).2.1 (by decide)

/-! ## Arguments and values -/

namespace Env

/-- What can be passed to a parameter can be assigned to a variable of the type of the parameter.
What can be assigned can be passed unless it is a variable of another type. -/
structure ArgumentsStricter (e : Env) : Prop where
  value : ∀ t v, (e.checkArgument t v).isOk → (e.checkValue t v).isOk
  argument : ∀ t v, (e.checkValue t v).isOk →
    ((e.checkArgument t v).isOk ↔
      ¬ (Literal.type v = .unknown ∧ ∃ b, e.find? v = some b ∧ b.info.ty ≠ t))

theorem Proper.isOk_checkValue {e : Env} (he : e.Proper) {t : Ty} {v : Text}
    (h : (e.checkArgument t v).isOk) : (e.checkValue t v).isOk := by
  rw [Env.isOk_checkValue_iff]
  rcases Env.isOk_checkArgument_iff.mp h with hfits | ⟨hlit, hholds⟩
  · exact Or.inl hfits
  · have hname := he.isVariable_of_holds hholds
    obtain ⟨b, hb, hi, rfl⟩ := hholds
    exact Or.inr ⟨hlit, hname, b, hb, hi, Ty.accepts_self (he.binding_of_find? hb).ty⟩

theorem isOk_checkArgument_iff_of_checkValue {e : Env} {t : Ty} {v : Text}
    (h : (e.checkValue t v).isOk) :
    (e.checkArgument t v).isOk ↔
      ¬ (Literal.type v = .unknown ∧ ∃ b, e.find? v = some b ∧ b.info.ty ≠ t) := by
  rw [isOk_checkArgument_iff]
  rcases isOk_checkValue_iff.mp h with ⟨hlit, hfits⟩ | ⟨hlit, _, b, hb, hi, _⟩
  · simp [hlit, hfits]
  · simp [hlit, hb, hi]

end Env

namespace Verifier

/-- At every point of a run over the lines of a source, passing an argument is at least as strict
as assigning it, and it is stricter only where the types of variables are widened. -/
theorem arguments_stricter_than_values (source : Text) :
    Throughout (Text.lines source) Env.ArgumentsStricter :=
  throughout_of_proper (fun _ he => ⟨fun _ _ => he.isOk_checkValue,
    fun _ _ => Env.isOk_checkArgument_iff_of_checkValue⟩) source

def sampleWideningText : Text := "int n = 1;\n".toList

/-- What the survey knows after the declaration of an integer `n`. -/
def sampleWidening : Env := (surveyTo (Text.lines sampleWideningText) 1).state.env

theorem sampleWidening_assigned_not_passed :
    (sampleWidening.checkValue .double "n".toList).isOk ∧
      (sampleWidening.checkArgument .double "n".toList).isOk = false ∧
      (sampleWidening.checkArgument .int "n".toList).isOk := by
  have hstricter := (arguments_stricter_than_values sampleWideningText).survey 1
  have hdouble : (sampleWidening.checkValue .double "n".toList).isOk := by decide +kernel
  have hint : (sampleWidening.checkValue .int "n".toList).isOk := by decide +kernel
  have hname : Literal.type "n".toList = .unknown := by decide +kernel
  have hn : sampleWidening.find? "n".toList = some ⟨"n".toList, ⟨.int, false, true⟩, true⟩ := by
    decide +kernel
  refine ⟨hdouble, Bool.eq_false_iff.mpr fun hok => ?_, (hstricter.argument _ _ hint).mpr ?_⟩
  · exact (hstricter.argument _ _ hdouble).mp hok ⟨hname, _, hn, by decide⟩
  · intro ⟨_, b, hb, hty⟩
    obtain rfl := Option.some.inj (hn.symm.trans hb)
    exact hty rfl

end Verifier
end SJava
