/-
What stands in the tables.

Names and types come into an environment in three ways: with the clauses of a declaration,
with the parameters of a method, and with the copies that an assignment to a global variable
leaves in the body of a method.  No operation looks at a name or a type before it takes it
in.  That the tables hold nothing but proper names and types all the same is due to what the
lines of a source can be read as, and it stays so from the first line of the survey to the
last line of the inspection, in the middle of a line and after a fault.
-/
import SJava.Proofs.Levels
import SJava.Proofs.Pieces

namespace SJava

open Text

/-! ## Proper tables -/

structure Binding.Proper (b : Binding) : Prop where
  name : Name.isVariable b.name = true
  free : Name.isReserved b.name = false
  ty : b.info.ty ≠ .unknown
  value : b.info.isFinal = true → b.isInitialized = true

structure Parameter.Proper (p : Parameter) : Prop where
  name : Name.isMethod p.name = true
  free : Name.isReserved p.name = false
  ty : p.ty ≠ .unknown

structure Signature.Proper (s : Signature) : Prop where
  name : Name.isMethod s.name = true
  free : Name.isReserved s.name = false
  parameters : ∀ p ∈ s.parameters, p.Proper

/-- All variables of all frames and all methods are proper. -/
structure Env.Proper (e : Env) : Prop where
  bindings : ∀ f ∈ e.frames, ∀ b ∈ f.bindings, b.Proper
  methods : ∀ s ∈ e.methods, s.Proper

/-! ## Operations -/

/-- All variables of the frame are proper. -/
def Frame.Proper (f : Frame) : Prop := ∀ b ∈ f.bindings, b.Proper

namespace Frame.Proper

variable {f : Frame}

theorem declare (hf : f.Proper) {x : Text} {v : Variable} {i : Bool}
    (hb : Binding.Proper ⟨x, v, i⟩) : (f.declare x v i).state.Proper := by
  unfold Frame.declare
  split
  · exact hf
  · exact List.forall_mem_cons.mpr ⟨hb, hf⟩

theorem assign (hf : f.Proper) (x : Text) : (f.assign x).Proper := by
  intro b hb
  obtain ⟨c, hc, rfl⟩ := List.mem_map.mp hb
  have hproper := hf c hc
  split
  · exact ⟨hproper.name, hproper.free, hproper.ty, fun _ => rfl⟩
  · exact hproper

end Frame.Proper

namespace Env

theorem forall_mem_assignFirst {P : Frame → Prop} {fs : List Frame} {x : Text}
    (hassign : ∀ f, P f → P (f.assign x)) (h : ∀ f ∈ fs, P f) : ∀ f ∈ assignFirst x fs, P f := by
  induction fs with
  | nil => exact h
  | cons f outer ih =>
      rw [List.forall_mem_cons] at h
      rw [assignFirst]
      split
      · exact List.forall_mem_cons.mpr ⟨hassign f h.1, h.2⟩
      · exact List.forall_mem_cons.mpr ⟨h.1, ih h.2⟩

theorem forall_mem_onMethodFrame {P : Frame → Prop} {fs : List Frame}
    {op : Frame → Outcome Fault Frame} (hop : ∀ f, P f → P (op f).state) (h : ∀ f ∈ fs, P f) :
    ∀ f ∈ (onMethodFrame op fs).state, P f := by
  induction fs with
  | nil => exact h
  | cons f outer ih =>
      rw [List.forall_mem_cons] at h
      cases outer with
      | nil => exact List.forall_mem_singleton.mpr (hop f h.1)
      | cons f' outer => exact List.forall_mem_cons.mpr ⟨h.1, ih h.2⟩

namespace Proper

variable {e : Env}

theorem of_frames {e' : Env} (h : e.Proper) (hm : e'.methods = e.methods)
    (hg : e'.globals.Proper) (hl : ∀ f ∈ e'.locals, f.Proper) : e'.Proper where
  bindings := List.forall_mem_append.mpr ⟨hl, List.forall_mem_singleton.mpr hg⟩
  methods := hm ▸ h.methods

theorem globals (h : e.Proper) : e.globals.Proper := h.bindings _ (by simp [frames])

theorem locals (h : e.Proper) : ∀ f ∈ e.locals, f.Proper :=
  fun f hf => h.bindings f (List.mem_append_left _ hf)

theorem empty : Proper Env.empty where
  bindings := by simp [frames, Env.empty, Frame.empty]
  methods := by simp [Env.empty]

theorem push (h : e.Proper) : e.push.Proper :=
  h.of_frames rfl h.globals <|
    List.forall_mem_cons.mpr ⟨by simp [Frame.Proper, Frame.empty], h.locals⟩

theorem pop (h : e.Proper) : e.pop.state.Proper := by
  unfold Env.pop
  split
  · exact h
  · next f outer hl =>
    exact h.of_frames rfl h.globals fun f' hf' => h.locals f' (hl ▸ List.mem_cons_of_mem f hf')

theorem addMethod (h : e.Proper) {s : Signature} (hs : s.Proper) :
    (e.addMethod s).state.Proper := by
  unfold Env.addMethod
  split
  · exact h
  · exact ⟨h.bindings, List.forall_mem_cons.mpr ⟨hs, h.methods⟩⟩

theorem declare (h : e.Proper) {x : Text} {ty : Ty} {isFinal i : Bool}
    (hx : Name.isVariable x = true) (hfree : Name.isReserved x = false) (hty : ty ≠ .unknown)
    (hi : isFinal = true → i = true) : (e.declare x ty isFinal i).state.Proper := by
  unfold Env.declare
  split
  · next hl =>
    exact h.of_frames rfl (h.globals.declare ⟨hx, hfree, hty, hi⟩) h.locals
  · next f outer hl =>
    have hlocals := h.locals
    rw [hl, List.forall_mem_cons] at hlocals
    exact h.of_frames rfl h.globals
      (List.forall_mem_cons.mpr ⟨hlocals.1.declare ⟨hx, hfree, hty, hi⟩, hlocals.2⟩)

theorem binding_of_find? (h : e.Proper) {x : Text} {b : Binding} (hb : e.find? x = some b) :
    b.Proper := by
  obtain ⟨f, hf, hfb⟩ := List.exists_of_findSome?_eq_some hb
  exact h.bindings f hf b (List.mem_of_find?_eq_some hfb)

/-- An assignment brings in no name but that of a variable it has found. -/
theorem assign (h : e.Proper) (x : Text) : (e.assign x).state.Proper := by
  unfold Env.assign
  split
  · exact h
  next b hb =>
  split
  · exact h
  split
  · have hproper := h.binding_of_find? hb
    have hcopy : Binding.Proper ⟨x, b.info, true⟩ := by
      rw [← name_of_find? hb]
      exact ⟨hproper.name, hproper.free, hproper.ty, fun _ => rfl⟩
    exact h.of_frames rfl h.globals
      (forall_mem_onMethodFrame (fun _ hf' => hf'.declare hcopy) h.locals)
  split
  · exact h.of_frames rfl h.globals (forall_mem_assignFirst (fun _ hf => hf.assign x) h.locals)
  · exact h.of_frames rfl (h.globals.assign x) h.locals

theorem declareParameters (h : e.Proper) {ps : List Parameter} (hps : ∀ p ∈ ps, p.Proper) :
    (Outcome.each (fun e p => e.declare p.name p.ty p.isFinal true) e ps).state.Proper := by
  refine Outcome.state_each_of_mem (fun t p hp ht => ?_) h
  have hp' := hps p hp
  exact ht.declare (Name.isVariable_of_isMethod hp'.name) hp'.free hp'.ty fun _ => rfl

theorem enterMethod (h : e.Proper) (m : Text) : (e.enterMethod m).state.Proper := by
  unfold Env.enterMethod signature
  cases hs : e.signature? m with
  | none => exact h
  | some s => exact h.push.declareParameters (h.methods s (List.mem_of_find?_eq_some hs)).parameters

end Proper
end Env

/-! ## Lines -/

theorem Text.not_mem_of_mem_lines (s : Text) : ∀ line ∈ Text.lines s, '\n' ∉ line := by
  induction s with
  | nil => simp
  | cons c s ih =>
      by_cases hc : c = '\n'
      · rw [hc, lines_cons_lineFeed]
        exact List.forall_mem_cons.mpr ⟨List.not_mem_nil, ih⟩
      by_cases hreturn : c = '\r' ∧ s.head? = some '\n'
      · -- The two characters of the ending end the same line as the second of them alone.
        obtain ⟨rfl, hs⟩ := hreturn
        obtain ⟨t, rfl⟩ := List.head?_eq_some_iff.mp hs
        rwa [lines_cons_return_lineFeed, ← lines_cons_lineFeed]
      rw [lines_cons hc fun h hs => hreturn ⟨h, hs⟩]
      have hc' : '\n' ≠ c := Ne.symm hc
      cases hl : Text.lines s with
      | nil => simp [consFirst, hc']
      | cons l ls =>
          rw [hl, List.forall_mem_cons] at ih
          refine List.forall_mem_cons.mpr ⟨?_, ih.2⟩
          simpa [hc'] using ih.1

theorem Ty.ne_unknown_of_mem_declarable {t : Ty} (h : t ∈ Ty.declarable) : t ≠ .unknown := by
  rintro rfl
  exact absurd h (by decide)

/-- Where nothing but white space follows the word at the start of a trimmed text, there is
nothing but the word. -/
theorem Text.takeWhile_isWord_of_trimStart_eq_nil {s : Text}
    (h : trimStart ((trim s).dropWhile isWord) = []) : (trim s).takeWhile isWord = trim s := by
  obtain ⟨g, hg, hdrop⟩ := exists_append_trimStart ((trim s).dropWhile isWord)
  rw [h, List.append_nil] at hdrop
  have hend : trimEnd ((trim s).takeWhile isWord) = trim s := by
    calc trimEnd ((trim s).takeWhile isWord)
        = trimEnd ((trim s).takeWhile isWord ++ g) := (trimEnd_append hg).symm
      _ = trimEnd (trim s) := by rw [← hdrop, List.takeWhile_append_dropWhile]
      _ = trim s := trimEnd_trimEnd (trimStart s)
  have hpre : trim s <+: (trim s).takeWhile isWord := by
    have hpre := trimEnd_prefix ((trim s).takeWhile isWord)
    rwa [hend] at hpre
  exact (List.takeWhile_prefix _).eq_of_length_le hpre.length_le

/-- What is read as the name of a clause is a name, if the clause does not run over the end
of a line. -/
theorem Clause.isVariable_of_parse? {s : Text} {c : Clause} (h : parse? s = some c)
    (hs : '\n' ∉ s) : Name.isVariable c.name = true := by
  simp only [parse?] at h
  split at h
  · next hname =>
    split at h
    · next hrest =>
      obtain rfl := Option.some.inj h
      rwa [takeWhile_isWord_of_trimStart_eq_nil hrest] at hname
    · next d rest hrest =>
      have hvalue : trimStart rest <:+: s := (infix_value hrest).trans (infix_trim s)
      split at h
      · simp at h
      split at h
      · next hfeed => exact absurd (hvalue.subset (by simpa using hfeed)) hs
      · obtain rfl := Option.some.inj h
        exact hname
  · simp at h

theorem Declaration.ne_unknown_of_parse? {line : Text} {d : Declaration}
    (h : Declaration.parse? line = some d) : d.declarator.ty ≠ .unknown := by
  obtain ⟨_, _, hd, _⟩ := Declaration.exists_of_parse? h
  exact Ty.ne_unknown_of_mem_declarable (Declarator.mem_declarable_of_parse? hd)

theorem Declaration.isVariable_of_parse? {line : Text} {d : Declaration}
    (h : Declaration.parse? line = some d) (hline : '\n' ∉ line) :
    ∀ c ∈ d.clauses, Name.isVariable c.name = true := by
  intro c hc
  obtain ⟨s, t, _, ht, hcs⟩ := Declaration.exists_of_parse? h
  obtain ⟨p, hp, hparse⟩ := Clause.exists_of_mem_of_parseAll? hcs hc
  exact Clause.isVariable_of_parse? hparse fun hmem => hline (ht.subset (hp.subset hmem))

theorem Parameter.proper_of_ofWords {isFinal : Bool} {ty name : Text} {p : Parameter}
    (h : ofWords isFinal ty name = .ok p) : p.Proper := by
  unfold ofWords at h
  split at h
  · simp at h
  next t ht =>
  have hty : t ≠ .unknown := by
    unfold Ty.parse at ht
    split at ht
    · simp at ht
    · next t' ht' =>
      rw [← Except.ok.inj ht]
      exact Ty.ne_unknown_of_mem_declarable (List.mem_of_find?_eq_some ht')
  split at h
  · simp at h
  next hfree =>
  split at h
  · next hname =>
    rw [← Except.ok.inj h]
    exact ⟨hname, by simpa using hfree, hty⟩
  · simp at h

theorem Parameter.proper_of_parse {s : Text} {p : Parameter} (h : parse s = .ok p) :
    p.Proper := by
  rcases exists_ofWords_of_parse s with hs | ⟨isFinal, ty, _, name, _, hs⟩
  · rw [hs] at h
    simp at h
  · rw [hs] at h
    exact proper_of_ofWords h

theorem Header.isMethod_of_parse? {line : Text} {h : Header} (hp : Header.parse? line = some h) :
    Name.isMethod h.name = true := by
  simp only [Header.parse?, bind, Option.bind_eq_some_iff] at hp
  obtain ⟨s, _, t, _, ps, _, hh⟩ := hp
  split at hh
  · next hc =>
    obtain rfl := Option.some.inj hh
    exact (Bool.and_eq_true_iff.mp hc).1
  · simp at hh

theorem Header.proper_of_signature {line : Text} {h : Header} {s : Signature}
    (hp : Header.parse? line = some h) (hs : h.signature = .ok s) : s.Proper := by
  obtain ⟨hfree, hparams⟩ := signature_eq_ok hs
  have hname : s.name = h.name := name_of_signature hs
  refine ⟨?_, ?_, fun p hmem => ?_⟩
  · rw [hname]
    exact isMethod_of_parse? hp
  · rw [hname]
    exact hfree
  · obtain ⟨item, _, hparse⟩ := exists_of_mem_of_mapM_eq_ok hparams hmem
    exact Parameter.proper_of_parse hparse

/-! ## Rules -/

namespace Env
namespace Proper

variable {e : Env} {line : Text}

theorem declareClause (h : e.Proper) {d : Declarator} (hty : d.ty ≠ .unknown) {c : Clause}
    (hc : Name.isVariable c.name = true) : (Env.declareClause d e c).state.Proper := by
  unfold Env.declareClause
  split
  · exact h
  next hfree =>
  have hfree : Name.isReserved c.name = false := by simpa using hfree
  split
  · exact h
  split
  · split
    · exact h
    · next hfinal => exact h.declare hc hfree hty fun hf => absurd hf hfinal
  · exact state_require h (h.declare hc hfree hty fun _ => rfl)

theorem declareClauses (h : e.Proper) {d : Declarator} (hty : d.ty ≠ .unknown)
    {cs : List Clause} (hcs : ∀ c ∈ cs, Name.isVariable c.name = true) :
    (Outcome.each (Env.declareClause d) e cs).state.Proper :=
  Outcome.state_each_of_mem (fun _ c hc ht => ht.declareClause hty (hcs c hc)) h

theorem assignClauses (h : e.Proper) (cs : List Clause) :
    (Outcome.each (Env.assignClause line) e cs).state.Proper :=
  Outcome.state_each (fun _ c ht => state_assignClause ht ht.assign line c) h cs

theorem declareLine (h : e.Proper) (hline : '\n' ∉ line) (pass : Pass) :
    (e.declareLine pass line).state.Proper := by
  rw [Env.declareLine_eq]
  split
  · exact h
  split
  · exact h
  next d hd =>
  split
  · exact h
  · exact h.declareClauses (Declaration.ne_unknown_of_parse? hd)
      (Declaration.isVariable_of_parse? hd hline)

theorem assignLine (h : e.Proper) (line : Text) : (e.assignLine line).state.Proper :=
  state_assignLine h fun _ ht => ht.assign

theorem headerLine (h : e.Proper) (pass : Pass) (line : Text) :
    (e.headerLine pass line).state.Proper := by
  unfold Env.headerLine
  split
  · exact h
  next hd hhd =>
  split
  · exact h
  cases pass with
  | inspection => exact h.enterMethod hd.name
  | survey =>
      simp only
      split
      · exact h
      · next s hs => exact h.addMethod (Header.proper_of_signature hhd hs)

theorem openBlock (h : e.Proper) (line : Text) : (e.openBlock line).state.Proper := by
  unfold Env.openBlock
  split
  · exact h
  split
  · exact h
  · exact state_require h h.push

theorem closeBlock (h : e.Proper) (afterReturn : Bool) :
    (e.closeBlock afterReturn).state.Proper := by
  unfold Env.closeBlock
  split
  · exact h
  · exact h.pop

theorem surveyLine (h : e.Proper) (hline : '\n' ∉ line) : (e.surveyLine line).state.Proper := by
  unfold Env.surveyLine
  split
  · exact h.headerLine .survey line
  · exact h.declareLine hline .survey
  · exact h.assignLine line
  · exact h

theorem inspectLine (h : e.Proper) (hline : '\n' ∉ line) (afterReturn : Bool) :
    (e.inspectLine afterReturn line).state.Proper := by
  unfold Env.inspectLine
  split
  · exact h
  next rule _ =>
  cases rule with
  | refuseComment => exact h
  | declare => exact h.declareLine hline .inspection
  | enterMethod => exact h.headerLine .inspection line
  | openBlock => exact h.openBlock line
  | closeBlock => exact h.closeBlock afterReturn
  | call => exact state_require h h
  | assign =>
      rw [Rule.apply]
      split
      · exact h
      · exact h.assignLine line
  | leave => exact state_require h h

theorem midway (h : e.Proper) (hline : '\n' ∉ line) {e' : Env} (hmid : Midway line e e') :
    e'.Proper := by
  cases hmid with
  | declaring hd j =>
      exact h.declareClauses (Declaration.ne_unknown_of_parse? hd) fun c hc =>
        Declaration.isVariable_of_parse? hd hline c (List.mem_of_mem_take hc)
  | assigning hcs j => exact h.assignClauses _
  | entering hhd hs j =>
      have hps := (h.methods _ (List.mem_of_find?_eq_some hs)).parameters
      exact h.push.declareParameters fun p hp => hps p (List.mem_of_mem_take hp)

end Proper
end Env

/-! ## Runs -/

namespace Progress

variable {p : Progress} {line : Text}

theorem proper_survey (hp : p.env.Proper) (hline : '\n' ∉ line) :
    (p.survey line).state.env.Proper := by
  refine Outcome.state_andThen (P := fun q : Progress => q.env.Proper) ?_ fun _ hq => hq
  split
  · exact hp.surveyLine hline
  · exact hp

theorem proper_inspect (hp : p.env.Proper) (hline : '\n' ∉ line) :
    (p.inspect line).state.env.Proper :=
  Outcome.state_andThen (P := fun q : Progress => q.env.Proper)
    (hp.inspectLine hline p.afterReturn) fun _ hq => hq

end Progress

namespace Verifier

section Source

variable {lines : List Text} (hlines : ∀ raw ∈ lines, '\n' ∉ raw)
include hlines

theorem not_mem_of_mem_significant {k : Nat} {line : Text}
    (h : line ∈ significant (lines.take k)) : '\n' ∉ line := by
  obtain ⟨raw, hraw, htrim⟩ := List.mem_filterMap.mp h
  split at htrim
  · simp at htrim
  · obtain rfl := Option.some.inj htrim
    exact fun hmem => hlines raw (List.mem_of_mem_take hraw) ((infix_trim raw).subset hmem)

theorem proper_surveyTo (k : Nat) : (surveyTo lines k).state.env.Proper := by
  have hrun : (Outcome.each Progress.survey .start (significant (lines.take k))).state.env.Proper :=
    Outcome.state_each_of_mem (P := fun p : Progress => p.env.Proper)
      (fun _ line hline hp => Progress.proper_survey hp (not_mem_of_mem_significant hlines hline))
      Env.Proper.empty
  rw [← view_surveyTo] at hrun
  exact hrun

theorem proper_inspectionTo (k : Nat) : (inspectionTo lines k).state.env.Proper := by
  have hstart : (surveyed lines).env.Proper := by
    rw [surveyed_eq]
    exact proper_surveyTo hlines lines.length
  have hrun : (Outcome.each Progress.inspect
      ⟨(surveyed lines).env, (surveyed lines).nesting, false⟩
      (significant (lines.take k))).state.env.Proper :=
    Outcome.state_each_of_mem (P := fun p : Progress => p.env.Proper)
      (fun _ line hline hp => Progress.proper_inspect hp (not_mem_of_mem_significant hlines hline))
      hstart
  rw [← view_inspectionTo] at hrun
  exact hrun

theorem proper_run : (start.run lines).state.env.Proper :=
  state_run (P := fun v : Verifier => v.env.Proper) (proper_surveyTo hlines lines.length)
    (proper_inspectionTo hlines lines.length)

end Source

/-- What proper tables entail holds at every point of a run over the lines of a source. -/
theorem throughout_of_proper {P : Env → Prop} (h : ∀ e, e.Proper → P e) (source : Text) :
    Throughout (Text.lines source) P := by
  have hlines := not_mem_of_mem_lines source
  have htrim {k : Nat} {raw : Text} (hk : (Text.lines source)[k]? = some raw) :
      '\n' ∉ trim raw :=
    fun hmem => hlines raw (List.mem_of_getElem? hk) ((infix_trim raw).subset hmem)
  exact {
    survey := fun k => h _ (proper_surveyTo hlines k)
    inspection := fun k => h _ (proper_inspectionTo hlines k)
    midSurvey := fun k _ _ hk hmid => h _ ((proper_surveyTo hlines k).midway (htrim hk) hmid)
    midInspection := fun k _ _ hk hmid =>
      h _ ((proper_inspectionTo hlines k).midway (htrim hk) hmid)
    finish := h _ (proper_run hlines) }

/-- At every point of a run over the lines of a source, all tables are proper.  A variable has
a name that is not reserved and a type, and it holds a value if it is final; a method and its
parameters have names of methods that are not reserved, and the parameters have types. -/
theorem tables_proper_throughout (source : Text) :
    Throughout (Text.lines source) Env.Proper :=
  throughout_of_proper (fun _ he => he) source

end Verifier
end SJava
