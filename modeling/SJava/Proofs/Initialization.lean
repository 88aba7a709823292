/-
Every variable that an accepted program uses is declared, and has a value.

A legal program goes through the events of its text: the rule for each line checks every
value on it and then has the effect that the text says.  The global lines make one path,
through which the survey goes, and the body of each method makes another, which begins with
the global variables that the survey left.  So the frames stay in step with the text, and
every use meets the declaration that the text makes visible.
-/
import SJava.Proofs.Acceptance
import SJava.Proofs.Checks
import SJava.Proofs.Paths

namespace SJava

open Text

/-! ## Values -/

/-- A name begins with a character that begins no literal but the two constants. -/
theorem Name.exists_cons_of_isVariable {v : Text} (hv : isVariable v) :
    ∃ c s, v = c :: s ∧ isDigit c = false ∧ c ∉ ['"', '\'', '+', '-', '.'] := by
  cases v with
  | nil => simp [isVariable] at hv
  | cons c s =>
      simp only [isVariable, Bool.and_eq_true, Bool.or_eq_true, beq_iff_eq] at hv
      have hc : inRanges [(65, 90), (95, 95), (97, 122)] c := by
        rcases hv.1 with h | ⟨rfl, _⟩
        · rw [isAlpha_eq] at h
          exact inRanges_of_subset (by decide) h
        · decide
      have hdigit : inRanges ((48, 57) :: digitRanges) c = false :=
        inRanges_eq_false (by decide +kernel) hc
      have hmark : inRanges [(34, 34), (39, 39), (43, 43), (45, 45), (46, 46)] c = false :=
        inRanges_eq_false (by decide +kernel) hc
      refine ⟨c, s, rfl, ?_, fun hm => ?_⟩
      · rw [inRanges, List.any_cons, Bool.or_eq_false_iff] at hdigit
        rw [isDigit, Bool.or_eq_false_iff]
        exact ⟨hdigit.1, hdigit.2⟩
      · simp only [List.mem_cons, List.not_mem_nil, or_false] at hm
        rcases hm with rfl | rfl | rfl | rfl | rfl <;> revert hmark <;> decide

namespace Literal

variable {v : Text}

theorem isDouble_eq_false_of_isVariable (hv : Name.isVariable v) : isDouble v = false := by
  obtain ⟨c, s, rfl, hd, hm⟩ := Name.exists_cons_of_isVariable hv
  simp only [List.mem_cons, not_or] at hm
  have hsign : unsigned (c :: s) = c :: s := by
    unfold unsigned
    split <;> simp_all
  simp [isDouble, hsign, hd, hm]

theorem type_eq_unknown (hv : Name.isVariable v) (hb : isBoolean v = false) :
    type v = .unknown := by
  have hdouble := isDouble_eq_false_of_isVariable hv
  have hint := isInt_eq_false hdouble
  obtain ⟨c, s, rfl, _, hm⟩ := Name.exists_cons_of_isVariable hv
  simp only [List.mem_cons, not_or] at hm
  have hstring : isString (c :: s) = false := by simp [isString, hm]
  have hchar : isChar (c :: s) = false := by
    unfold isChar
    split <;> simp_all
  simp [type, hstring, hint, hchar, hb, hdouble]

end Literal

namespace Env

variable {e e' : Env} {line : Text}

theorem path_valueEvents {v : Text}
    (h : Name.isVariable v → Literal.isBoolean v = false →
      ∃ b, e.find? v = some b ∧ b.isInitialized) : Path e (valueEvents v) e := by
  rw [valueEvents]
  split
  · next hv =>
    rw [Bool.and_eq_true, Bool.not_eq_true'] at hv
    obtain ⟨b, hb, hi⟩ := h hv.1 hv.2
    exact .single (.use hb hi)
  · exact .nil e

theorem path_of_checkValue {ty : Ty} {v : Text} (h : (e.checkValue ty v).isOk) :
    Path e (valueEvents v) e := by
  refine path_valueEvents fun hv hb => ?_
  rcases isOk_checkValue_iff.mp h with ⟨hlit, _⟩ | ⟨_, _, b, hf, hi, _⟩
  · exact absurd (Literal.type_eq_unknown hv hb) hlit
  · exact ⟨b, hf, hi⟩

theorem path_of_checkArgument {ty : Ty} {v : Text} (h : (e.checkArgument ty v).isOk) :
    Path e (valueEvents v) e := by
  refine path_valueEvents fun hv hb => ?_
  rcases isOk_checkArgument_iff.mp h with ⟨hlit, _⟩ | ⟨_, b, hf, hi, _⟩
  · exact absurd (Literal.type_eq_unknown hv hb) hlit
  · exact ⟨b, hf, hi⟩

/-- Every argument is checked, because there are as many as parameters. -/
theorem path_of_checkArguments {ps : List Parameter} {vs : List Text}
    (hlen : vs.length = ps.length) (h : (e.checkArguments ps vs).isOk) :
    Path e (vs.flatMap valueEvents) e := by
  induction vs generalizing ps with
  | nil => exact .nil e
  | cons v vs ih =>
      cases ps with
      | nil => simp at hlen
      | cons p ps =>
          rw [isOk_checkArguments_iff, List.zip_cons_cons] at h
          have hrest : (e.checkArguments ps vs).isOk :=
            isOk_checkArguments_iff.mpr fun q w hmem => h q w (List.mem_cons_of_mem _ hmem)
          rw [List.flatMap_cons]
          exact (path_of_checkArgument (h p v List.mem_cons_self)).append
            (ih (by simpa using hlen) hrest)

theorem path_of_checkCall (hc : Category.of line = .methodCall) (h : (e.checkCall line).isOk) :
    Path e (lineEvents line) e := by
  obtain ⟨c, s, hparse, _, _, _, hlen, hargs⟩ := isOk_checkCall_iff.mp h
  simp only [lineEvents, hc, hparse, Option.elim_some]
  exact path_of_checkArguments hlen hargs

theorem path_of_checkOperands {pieces : List Text} {os : List Operand}
    (hparse : (pieces.mapM fun s => Operand.parse? (trim s)) = some os)
    (h : (e.checkOperands os).isOk) :
    Path e (pieces.flatMap fun s => valueEvents (trim s)) e := by
  induction pieces generalizing os with
  | nil => exact .nil e
  | cons s pieces ih =>
      rw [List.mapM_cons] at hparse
      obtain ⟨o, ho, hparse⟩ := Option.bind_eq_some_iff.mp hparse
      obtain ⟨os', hos, hparse⟩ := Option.bind_eq_some_iff.mp hparse
      obtain rfl : o :: os' = os := Option.some.inj hparse
      rw [isOk_checkOperands_iff] at h
      have hrest : (e.checkOperands os').isOk :=
        isOk_checkOperands_iff.mpr fun o' ho' => h o' (List.mem_cons_of_mem _ ho')
      rw [List.flatMap_cons]
      refine Path.append (path_valueEvents fun hv hb => ?_) (ih hos hrest)
      have hname : Operand.parse? (trim s) = some (.name (trim s)) := by
        simp [Operand.parse?, hb, Literal.isDouble_eq_false_of_isVariable hv, hv]
      obtain rfl : Operand.name (trim s) = o := Option.some.inj (hname.symm.trans ho)
      obtain ⟨b, hf, hi, _⟩ := isOk_checkOperand_iff.mp (h _ List.mem_cons_self) _ rfl
      exact ⟨b, hf, hi⟩

/-! ## Lines -/

theorem path_each {α : Type} {step : Env → α → Outcome Fault Env} {f : α → List Event}
    (hstep : ∀ e a e', (step e a).result? = some e' → Path e (f a) e') {as : List α}
    (h : (Outcome.each step e as).result? = some e') : Path e (as.flatMap f) e' := by
  induction as generalizing e with
  | nil =>
      obtain rfl : e = e' := Option.some.inj h
      exact .nil e
  | cons a as ih =>
      rw [Outcome.result?_each_cons] at h
      obtain ⟨t, ht, h⟩ := Option.bind_eq_some_iff.mp h
      rw [List.flatMap_cons]
      exact (hstep e a t ht).append (ih h)

theorem path_of_declareClause {d : Declarator} {c : Clause}
    (h : (declareClause d e c).result? = some e') :
    Path e (c.events fun c => .declare c.name c.value.isSome) e' := by
  unfold declareClause at h
  split at h
  · simp at h
  split at h
  · simp at h
  rw [Clause.events]
  split at h
  · next hv =>
    split at h
    · simp at h
    · simp only [hv, Option.elim_none, List.nil_append]
      exact .single (.declare h)
  · next v hv =>
    rw [Outcome.result?_require] at h
    split at h
    · next hok =>
      simp only [hv, Option.elim_some]
      exact (path_of_checkValue hok).append (.single (.declare h))
    · simp at h

theorem path_of_assignClause {c : Clause} (h : (assignClause line e c).result? = some e') :
    Path e (c.events fun c => .assign c.name) e' := by
  unfold assignClause at h
  split at h
  · simp at h
  split at h
  · simp at h
  rw [Clause.events]
  split at h
  · simp at h
  · next v hv =>
    rw [Outcome.result?_require] at h
    split at h
    · next hok =>
      simp only [hv, Option.elim_some]
      exact (path_of_checkValue hok).append (.single (.assign h))
    · simp at h

theorem path_of_declareLine {pass : Pass} (hc : Category.of line = .variableDeclaration)
    (hskip : (e.isGlobal && pass = .inspection) = false)
    (h : (e.declareLine pass line).result? = some e') : Path e (lineEvents line) e' := by
  simp only [declareLine_eq, hskip, Bool.false_eq_true, if_false] at h
  rw [lineEvents, hc]
  split at h
  · simp at h
  next d hd =>
  split at h
  · simp at h
  · simp only [hd, Option.elim_some]
    exact path_each (fun _ _ _ hclause => path_of_declareClause hclause) h

theorem path_of_assignLine (hc : Category.of line = .variableAssignment)
    (h : (e.assignLine line).result? = some e') : Path e (lineEvents line) e' := by
  unfold assignLine at h
  rw [lineEvents, hc]
  split at h
  · simp at h
  next cs hcs =>
  split at h
  · simp at h
  · simp only [hcs, Option.elim_some]
    exact path_each (fun _ _ _ hclause => path_of_assignClause hclause) h

end Env

/-! ## Statements -/

theorem change_valueEvents {v : Text} {ev : Event} (h : ev ∈ valueEvents v) : ev.change = 0 := by
  rw [valueEvents] at h
  split at h
  · obtain rfl := List.mem_singleton.mp h
    rfl
  · simp at h

theorem Clause.change_events {target : Clause → Event} (ht : ∀ c, (target c).change = 0)
    {c : Clause} {ev : Event} (h : ev ∈ c.events target) : ev.change = 0 := by
  rw [Clause.events, List.mem_append] at h
  rcases h with h | h
  · cases hv : c.value with
    | none => simp [hv] at h
    | some v => exact change_valueEvents (by simpa [hv] using h)
  · obtain rfl := List.mem_singleton.mp h
    exact ht c

theorem change_lineEvents (line : Text) {ev : Event}
    (hc : Category.of line ∈
      [.variableDeclaration, .variableAssignment, .methodCall, .returnStatement])
    (h : ev ∈ lineEvents line) : ev.change = 0 := by
  rw [lineEvents] at h
  simp only [List.mem_cons, List.not_mem_nil, or_false] at hc
  rcases hc with hc | hc | hc | hc <;> rw [hc] at h
  · cases hd : Declaration.parse? line with
    | none => simp [hd] at h
    | some d =>
        simp only [hd, Option.elim_some, List.mem_flatMap] at h
        obtain ⟨c, _, hev⟩ := h
        exact Clause.change_events (fun _ => rfl) hev
  · cases hd : Assignment.parse? line with
    | none => simp [hd] at h
    | some cs =>
        simp only [hd, Option.elim_some, List.mem_flatMap] at h
        obtain ⟨c, _, hev⟩ := h
        exact Clause.change_events (fun _ => rfl) hev
  · cases hd : Call.parse? line with
    | none => simp [hd] at h
    | some c =>
        simp only [hd, Option.elim_some, List.mem_flatMap] at h
        obtain ⟨v, _, hev⟩ := h
        exact change_valueEvents hev
  · simp at h

theorem lineEvents_closing : lineEvents closing = [.close] := by rw [lineEvents, of_closing]

namespace Statement

def events (s : Statement) : List Event := s.lines.flatMap lineEvents

def eventsOf (ss : List Statement) : List Event := (linesOf ss).flatMap lineEvents

theorem eventsOf_cons (s : Statement) (ss : List Statement) :
    eventsOf (s :: ss) = s.events ++ eventsOf ss := by
  rw [eventsOf, linesOf, List.flatMap_append]
  rfl

/-- The uses in the condition of a block, and then the block. -/
theorem events_block (header : Line .conditionalBlockStart) (body : List Statement) :
    (block header body).events =
      ((Condition.cutOperators (Condition.text header.text)).flatMap fun s =>
          valueEvents (trim s)) ++ .openBlock :: (eventsOf body ++ [.close]) := by
  rw [events, lines, List.flatMap_cons, List.flatMap_append, List.flatMap_singleton,
    lineEvents_closing, lineEvents, header.of_text]
  simp [eventsOf]

mutual
theorem balanced_events (s : Statement) : Balanced s.events := by
  cases s with
  | declaration line | assignment line | call line | leave line =>
      refine Balanced.of_change fun ev hev => change_lineEvents line.text ?_ ?_
      · rw [line.of_text]
        decide
      · simpa [events, lines] using hev
  | block header body =>
      rw [events_block]
      refine Balanced.append (Balanced.of_change fun ev hev => ?_) (Balanced.block rfl
        (balanced_eventsOf body))
      obtain ⟨v, _, hev⟩ := List.mem_flatMap.mp hev
      exact change_valueEvents hev

theorem balanced_eventsOf (ss : List Statement) : Balanced (eventsOf ss) := by
  cases ss with
  | nil => exact Balanced.of_change fun ev hev => by simp [eventsOf, linesOf] at hev
  | cons s rest =>
      rw [eventsOf_cons]
      exact (balanced_events s).append (balanced_eventsOf rest)
end

mutual
theorem path_check (s : Statement) {e e' : Env} (he : e.locals ≠ []) (hg : e.globals.AllGlobal)
    (h : s.check e = some e') : Env.Path e s.events e' := by
  cases s with
  | declaration line =>
      rw [events, lines, List.flatMap_singleton]
      exact Env.path_of_declareLine line.of_text (by simp [Env.isGlobal_eq_false he]) h
  | assignment line =>
      rw [events, lines, List.flatMap_singleton]
      exact Env.path_of_assignLine line.of_text h
  | call line =>
      rw [check] at h
      split at h
      · next hok =>
        obtain rfl := Option.some.inj h
        rw [events, lines, List.flatMap_singleton]
        exact Env.path_of_checkCall line.of_text hok
      · simp at h
  | leave line =>
      obtain rfl : e = e' := Option.some.inj h
      rw [events, lines, List.flatMap_singleton, lineEvents, line.of_text]
      exact .nil e
  | block header body =>
      rw [check] at h
      split at h
      · simp at h
      next os hos =>
      split at h
      · next hok =>
        obtain ⟨t, ht, rfl⟩ := Option.map_eq_some_iff.mp h
        have hne : e.push.locals ≠ [] := List.cons_ne_nil _ _
        rw [events_block]
        exact (Env.path_of_checkOperands hos hok).append
          (.cons (.openBlock e) ((path_checkAll body hne hg ht).append (.single (.close t))))
      · simp at h

theorem path_checkAll (ss : List Statement) {e e' : Env} (he : e.locals ≠ [])
    (hg : e.globals.AllGlobal) (h : checkAll e ss = some e') : Env.Path e (eventsOf ss) e' := by
  cases ss with
  | nil =>
      obtain rfl : e = e' := Option.some.inj h
      exact .nil e
  | cons s rest =>
      rw [checkAll] at h
      obtain ⟨t, ht, h⟩ := Option.bind_eq_some_iff.mp h
      have hb := sameBlocks_check s he hg ht
      have hg' : t.globals.AllGlobal := by rw [hb.globals]; exact hg
      rw [eventsOf_cons]
      exact (path_check s he hg ht).append (path_checkAll rest (hb.ne_nil he) hg' h)
end

end Statement

/-! ## Items -/

def Item.events (item : Item) : List Event := item.lines.flatMap lineEvents

namespace Item

theorem events_method (header : Line .methodDeclaration) (body : List Statement) :
    (method header body).events =
      .enter (parameterNames header.text) :: (Statement.eventsOf body ++ [.close]) := by
  rw [events, lines, List.flatMap_cons, List.flatMap_append, List.flatMap_singleton,
    lineEvents_closing, lineEvents, header.of_text]
  rfl

theorem change_events {item : Item} (hh : item.header? = none) {ev : Event}
    (hev : ev ∈ item.events) : ev.change = 0 := by
  cases item with
  | declaration line | assignment line =>
      refine change_lineEvents line.text ?_ (by simpa [events, lines] using hev)
      rw [line.of_text]
      decide
  | method header body => simp [header?] at hh

theorem balanced_events (item : Item) : Balanced item.events := by
  cases item with
  | declaration line | assignment line => exact Balanced.of_change fun ev => change_events rfl
  | method header body =>
      rw [events_method]
      exact Balanced.block rfl (Statement.balanced_eventsOf body)

end Item

section Positions

variable {E pre evs post : List Event} (hE : E = pre ++ (evs ++ post)) (hpre : rise pre = 0)

include hE in
theorem getElem?_of_append {k : Nat} {ev : Event} (hk : evs[k]? = some ev) :
    E[pre.length + k]? = some ev := by
  have hlt : k < evs.length := (List.getElem?_eq_some_iff.mp hk).1
  rw [hE, List.getElem?_append_right (by omega), Nat.add_sub_cancel_left,
    List.getElem?_append_left hlt, hk]

include hE hpre in
theorem blocksAt_of_append {k : Nat} (hk : k ≤ evs.length) :
    blocksAt E (pre.length + k) = rise (evs.take k) := by
  rw [hE, blocksAt_append hk, hpre]
  exact Int.zero_add _

end Positions

section Methods

variable {E pre body post : List Event} {opening : Event}

theorem blocksAt_pos_of_body (hE : E = pre ++ (opening :: (body ++ [.close]) ++ post))
    (hpre : rise pre = 0) (ho : opening.change = 1) (hb : Balanced body) {k : Nat}
    (hk : k ≤ body.length) : 0 < blocksAt E (pre.length + (k + 1)) := by
  have hbody := hb.2 k
  have hlen : k + 1 ≤ (opening :: (body ++ [Event.close])).length := by
    rw [List.length_cons, List.length_append]
    omega
  rw [blocksAt_of_append hE hpre hlen, List.take_succ_cons, rise_cons, ho,
    List.take_append_of_le_length hk]
  omega

/-- The last event of a method ends it, and the others leave a block open. -/
theorem eq_close_or_blocksAt_pos (hE : E = pre ++ (opening :: (body ++ [.close]) ++ post))
    (hpre : rise pre = 0) (ho : opening.change = 1) (hb : Balanced body) {k : Nat} {ev : Event}
    (hk : (opening :: (body ++ [.close]))[k]? = some ev) :
    ev = .close ∨ 0 < blocksAt E (pre.length + (k + 1)) := by
  have hlt := (List.getElem?_eq_some_iff.mp hk).1
  rw [List.length_cons, List.length_append, List.length_singleton] at hlt
  by_cases hk' : k ≤ body.length
  · exact Or.inr (blocksAt_pos_of_body hE hpre ho hb hk')
  · obtain rfl : k = body.length + 1 := by omega
    simp only [List.getElem?_cons_succ, List.getElem?_concat_length] at hk
    exact Or.inl (Option.some.inj hk).symm

end Methods

/-- What stands inside a method is nothing to the global frame. -/
theorem Traced.skip {E : List Event} {i n : Nat} {f : Frame} (hpos : ∀ r, 0 ≤ blocksAt E r)
    (hev : ∀ k < n, ∃ ev, E[i + k]? = some ev ∧ ∀ x, ev.declares x → 0 < blocksAt E (i + (k + 1)))
    (h : Traced E i 0 f) : Traced E (i + n) 0 f := by
  induction n with
  | zero => exact h
  | succ n ih =>
      obtain ⟨ev, hev', hdecl⟩ := hev n (by omega)
      refine Traced.succ hev' (hpos _) (fun x hx => ?_) (ih fun k hk => hev k (by omega))
      have hlt : 0 < blocksAt E (i + n + 1) := hdecl x hx
      exact Int.ne_of_gt hlt

namespace Item

variable {E pre post : List Event} {item : Item} {e t : Env}

theorem path_declareIn (hh : item.header? = none) (hrun : (item.declareIn e).result? = some t) :
    Env.Path e item.events t := by
  cases item with
  | declaration line =>
      rw [events, lines, List.flatMap_singleton]
      exact Env.path_of_declareLine line.of_text (by simp) hrun
  | assignment line =>
      rw [events, lines, List.flatMap_singleton]
      exact Env.path_of_assignLine line.of_text hrun
  | method header body => simp [header?] at hh

/-- The survey of an item goes through its events, if they are outside every method. -/
theorem traced_declareIn (hpos : ∀ r, 0 ≤ blocksAt E r) (hE : E = pre ++ (item.events ++ post))
    (hpre : rise pre = 0) (hrun : (item.declareIn e).result? = some t) (hl : e.locals = [])
    (h : Traced E pre.length 0 e.globals) :
    t.locals = [] ∧ Traced E (pre.length + item.events.length) 0 t.globals ∧
      ∀ k < item.events.length, blocksAt E (pre.length + k) = 0 → SoundAt E (pre.length + k) := by
  cases hh : item.header? with
  | none =>
      have hzero : blocksAt E pre.length = 0 := blocksAt_of_append hE hpre (Nat.zero_le _)
      obtain ⟨ht, hsound⟩ := (path_declareIn hh hrun).run (I := fun i e => e.GlobalTraces E i)
        (C := fun _ ev => ev.change = 0)
        (fun _ _ _ _ hstep hev hc h => h.step hpos hev hc hstep)
        (fun k ev hk => ⟨getElem?_of_append hE hk, change_events hh (List.mem_of_getElem? hk)⟩)
        ⟨hl, hzero, h⟩
      exact ⟨ht.locals, ht.globals, fun k hk _ => hsound k hk⟩
  | some header =>
      obtain ⟨body, rfl⟩ : ∃ body, item = method header body := by
        cases item <;> simp_all [header?]
      obtain rfl : e = t := Option.some.inj hrun
      have hb := Statement.balanced_eventsOf body
      rw [events_method] at hE ⊢
      refine ⟨hl, h.skip hpos fun k hk => ?_, fun k hk hzero => ?_⟩
      · obtain ⟨ev, hev⟩ : ∃ ev, _ = some ev := ⟨_, List.getElem?_eq_getElem hk⟩
        refine ⟨ev, getElem?_of_append hE hev, fun x hx => ?_⟩
        rcases eq_close_or_blocksAt_pos hE hpre rfl hb hev with rfl | hlt
        · exact Event.silent_close.elim hx
        · exact hlt
      · cases k with
        | zero => exact soundAt_of_ne (getElem?_of_append hE (k := 0) rfl) (by simp)
        | succ k =>
            rw [List.length_cons, List.length_append, List.length_singleton] at hk
            have := blocksAt_pos_of_body hE hpre rfl hb (show k ≤ _ by omega)
            omega

/-- The inspection of a legal item goes through its events, if they are inside a method. -/
theorem sound_of_isLegal (hpos : ∀ r, 0 ≤ blocksAt E r) (hE : E = pre ++ (item.events ++ post))
    (hpre : rise pre = 0) (hg : Traced E E.length 0 e.globals) (hlegal : item.isLegal e) {k : Nat}
    (hk : k < item.events.length) (hi : 0 < blocksAt E (pre.length + k)) :
    SoundAt E (pre.length + k) := by
  cases hh : item.header? with
  | none =>
      have hflat := rise_eq_zero fun ev (h : ev ∈ item.events.take k) =>
        change_events hh (List.mem_of_mem_take h)
      rw [blocksAt_of_append hE hpre (by omega)] at hi
      omega
  | some header =>
      obtain ⟨body, rfl⟩ : ∃ body, item = method header body := by
        cases item <;> simp_all [header?]
      rw [isLegal] at hlegal
      split at hlegal
      · simp at hlegal
      next s hs =>
      simp only [Bool.and_eq_true] at hlegal
      obtain ⟨t, ht⟩ := Option.isSome_iff_exists.mp hlegal.1.2
      have hnames : parameterNames header.text = s.parameters.map (·.name) := by
        rw [parameterNames, ← Line.signature?, hs]
        rfl
      rw [events_method, hnames] at hE hk
      have hb := Statement.balanced_eventsOf body
      have hzero : blocksAt E pre.length = 0 := blocksAt_of_append hE hpre (Nat.zero_le _)
      have hstart := Env.Traces.enter hzero (getElem?_of_append hE (k := 0) rfl) hg
      have hbody := Statement.path_checkAll body
        (e := { e with locals := [Frame.ofParameters s.parameters] }) (List.cons_ne_nil _ _)
        hg.allGlobal ht
      have hshift (j : Nat) : pre.length + 1 + j = pre.length + (j + 1) := by omega
      have hpath := hbody.run (I := fun i e => e.Traces E i) (C := fun i _ => 0 < blocksAt E i)
        (fun _ _ _ _ hstep hev hi h => h.step hpos hi hev hstep)
        (fun j ev hj => by
          have hlt : j < (Statement.eventsOf body).length := (List.getElem?_eq_some_iff.mp hj).1
          rw [hshift]
          refine ⟨getElem?_of_append hE ?_, blocksAt_pos_of_body hE hpre rfl hb (by omega)⟩
          rw [List.getElem?_cons_succ, List.getElem?_append_left hlt, hj]) hstart
      cases k with
      | zero => exact soundAt_of_ne (getElem?_of_append hE (k := 0) rfl) (by simp)
      | succ k =>
          rw [List.length_cons, List.length_append, List.length_singleton] at hk
          by_cases hk' : k < (Statement.eventsOf body).length
          · rw [← hshift]
            exact hpath.2 k hk'
          · obtain rfl : k = (Statement.eventsOf body).length := by omega
            have hclose : E[pre.length + ((Statement.eventsOf body).length + 1)]? = some .close :=
              getElem?_of_append hE (by rw [List.getElem?_cons_succ, List.getElem?_concat_length])
            exact soundAt_of_ne hclose (by simp)

theorem balanced_flatMap_events (items : List Item) : Balanced (items.flatMap events) := by
  induction items with
  | nil => exact Balanced.of_change fun ev hev => by simp at hev
  | cons item items ih =>
      rw [List.flatMap_cons]
      exact item.balanced_events.append ih

theorem split_events {items : List Item}
    (hE : E = pre ++ ((item :: items).flatMap events ++ post)) (hpre : rise pre = 0) :
    E = pre ++ (item.events ++ (items.flatMap events ++ post)) ∧
      E = (pre ++ item.events) ++ (items.flatMap events ++ post) ∧
      rise (pre ++ item.events) = 0 := by
  have hfirst : E = pre ++ (item.events ++ (items.flatMap events ++ post)) := by
    rw [hE, List.flatMap_cons, List.append_assoc]
  refine ⟨hfirst, by rw [hfirst, List.append_assoc], ?_⟩
  rw [rise_append, hpre, item.balanced_events.1]
  rfl

theorem traced_each_declareIn (hpos : ∀ r, 0 ≤ blocksAt E r) {items : List Item}
    (hE : E = pre ++ (items.flatMap events ++ post)) (hpre : rise pre = 0)
    (hrun : (Outcome.each declareIn e items).result? = some t) (hl : e.locals = [])
    (h : Traced E pre.length 0 e.globals) :
    Traced E (pre.length + (items.flatMap events).length) 0 t.globals ∧
      ∀ k < (items.flatMap events).length, blocksAt E (pre.length + k) = 0 →
        SoundAt E (pre.length + k) := by
  induction items generalizing pre e with
  | nil =>
      obtain rfl : e = t := Option.some.inj hrun
      exact ⟨h, fun k hk => by simp at hk⟩
  | cons item items ih =>
      rw [Outcome.result?_each_cons] at hrun
      obtain ⟨u, hu, hrun⟩ := Option.bind_eq_some_iff.mp hrun
      obtain ⟨hfirst, hrest, hpre'⟩ := split_events hE hpre
      obtain ⟨hlu, hu', hsound⟩ := traced_declareIn hpos hfirst hpre hu hl h
      rw [← List.length_append] at hu'
      obtain ⟨hend, hsounds⟩ := ih hrest hpre' hrun hlu hu'
      rw [List.length_append] at hend hsounds
      rw [List.flatMap_cons, List.length_append]
      refine ⟨by rw [← Nat.add_assoc]; exact hend, fun k hk hi => ?_⟩
      by_cases hk' : k < item.events.length
      · exact hsound k hk' hi
      · have hshift : pre.length + k =
            pre.length + item.events.length + (k - item.events.length) := by
          omega
        rw [hshift] at hi ⊢
        exact hsounds _ (by omega) hi

theorem sound_of_all_isLegal (hpos : ∀ r, 0 ≤ blocksAt E r) {items : List Item}
    (hE : E = pre ++ (items.flatMap events ++ post)) (hpre : rise pre = 0)
    (hg : Traced E E.length 0 e.globals) (hlegal : items.all (isLegal e)) {k : Nat}
    (hk : k < (items.flatMap events).length) (hi : 0 < blocksAt E (pre.length + k)) :
    SoundAt E (pre.length + k) := by
  induction items generalizing pre k with
  | nil => simp at hk
  | cons item items ih =>
      rw [List.all_cons, Bool.and_eq_true] at hlegal
      rw [List.flatMap_cons, List.length_append] at hk
      obtain ⟨hfirst, hrest, hpre'⟩ := split_events hE hpre
      by_cases hk' : k < item.events.length
      · exact sound_of_isLegal hpos hfirst hpre hg hlegal.1 hk' hi
      · have hshift : pre.length + k =
            (pre ++ item.events).length + (k - item.events.length) := by
          rw [List.length_append]
          omega
        rw [hshift] at hi ⊢
        exact ih hrest hpre' hlegal.2 (by omega) hi

end Item

/-! ## Programs -/

theorem Program.sound_of_isLegal {p : Program} (h : p.isLegal) (i : Nat) :
    SoundAt (p.items.flatMap Item.events) i := by
  have hpos : ∀ r, 0 ≤ blocksAt (p.items.flatMap Item.events) r :=
    (Item.balanced_flatMap_events p.items).2
  rw [isLegal] at h
  cases he : p.environment? with
  | none => simp [he] at h
  | some e =>
      have hlegal : p.items.all (Item.isLegal e) := by simpa [he] using h
      obtain ⟨t, ht, _, hglobals⟩ := exists_globals_of_environment? he
      have hE : p.items.flatMap Item.events = [] ++ (p.items.flatMap Item.events ++ []) := by simp
      have hstart : Traced (p.items.flatMap Item.events) 0 0 Env.empty.globals :=
        Traced.empty none fun x d hd => absurd hd.2.2.1 (Nat.not_lt_zero d)
      obtain ⟨hend, hsurvey⟩ := Item.traced_each_declareIn hpos hE rfl ht rfl hstart
      simp only [List.length_nil, Nat.zero_add, hglobals] at hend hsurvey
      have hinspection {k : Nat} := Item.sound_of_all_isLegal (k := k) hpos hE rfl hend hlegal
      simp only [List.length_nil, Nat.zero_add] at hinspection
      by_cases hi : i < (p.items.flatMap Item.events).length
      · by_cases hzero : blocksAt (p.items.flatMap Item.events) i = 0
        · exact hsurvey i hi hzero
        · have hge := hpos i
          exact hinspection hi (by omega)
      · intro x hx
        exact absurd (List.getElem?_eq_some_iff.mp hx).1 hi

/-- In a program that the verifier accepts, every variable that is used is declared where it
is used, and the declaration that is meant has been given a value. -/
theorem uses_are_declared_and_initialized {source : Text} (h : verifySource source = none) :
    ∀ p x, (events (Text.lines source))[p]? = some (.use x) →
      ∃ d, Innermost (events (Text.lines source)) p x d ∧
        Initialized (events (Text.lines source)) p x d := by
  have hacc := (verify_eq_none_iff (Text.lines source)).mp h
  obtain ⟨p, hp⟩ := exists_program_of_accepts hacc
  have hE : events (Text.lines source) = p.items.flatMap Item.events := by
    rw [events, ← hp, Program.lines, List.flatMap_assoc]
    rfl
  rw [hE]
  exact p.sound_of_isLegal (p.accepts_lines_iff.mp (hp ▸ hacc))

/-- The condition uses a global variable that has its value from the line before, and the
block declares another one of the same name. -/
def sampleSource : Text :=
  ("int g;\nint h = 1;\nvoid f(int a) \x7b\n  g = a;\n  if (g) \x7b\n" ++
    "    int g = h;\n    f(g);\n  \x7d\n  return;\n\x7d\n").toList

theorem use_in_sampleSource_is_initialized :
    verifySource sampleSource = none ∧
      (events (Text.lines sampleSource))[5]? = some (.use "g".toList) ∧
      ∃ d, Innermost (events (Text.lines sampleSource)) 5 "g".toList d ∧
        Initialized (events (Text.lines sampleSource)) 5 "g".toList d :=
  ⟨by decide +kernel, by decide +kernel,
    uses_are_declared_and_initialized (by decide +kernel) 5 _ (by decide +kernel)⟩

end SJava
