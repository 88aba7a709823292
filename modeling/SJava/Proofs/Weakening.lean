/-
Knowing more does no harm.

An environment may know more methods than another, more global variables, and values for
more of them.  Every line that the inspection accepts in the poorer environment it accepts
in the richer one, and the two stay related.  They do not stay equal inside a method: a
global variable without a value is copied into the frame of the method that assigns it,
and one with a value is not.  So the frames of the method's body may differ by copies whose
global variables hold a value in the richer environment (`Frame.BelowUpToCopies`).  All
other frames are the same, because they see the same declarations and the same assignments.
-/
import SJava.Proofs.Checks
import SJava.Proofs.GlobalKnowledge

namespace SJava

open Text Outcome

/-! ## Bindings -/

/-- The same variable, with a value at least where `b` has one. -/
structure Binding.Below (b b' : Binding) : Prop where
  info : b'.info = b.info
  isInitialized : b.isInitialized → b'.isInitialized

theorem Binding.Below.refl (b : Binding) : b.Below b := ⟨rfl, id⟩

theorem Binding.Below.trans {a b c : Binding} (h : a.Below b) (h' : b.Below c) : a.Below c :=
  ⟨h'.info.trans h.info, fun hi => h'.isInitialized (h.isInitialized hi)⟩

/-- What `find` finds under a name, `find'` finds under it as well. -/
def FindsBelow (find find' : Text → Option Binding) : Prop :=
  ∀ x b, find x = some b → ∃ b', find' x = some b' ∧ b.Below b'

theorem FindsBelow.refl (find : Text → Option Binding) : FindsBelow find find :=
  fun _ b hb => ⟨b, hb, .refl b⟩

theorem FindsBelow.trans {f g h : Text → Option Binding} (hfg : FindsBelow f g)
    (hgh : FindsBelow g h) : FindsBelow f h := by
  intro x b hb
  obtain ⟨b', hb', hbelow⟩ := hfg x b hb
  obtain ⟨b'', hb'', hbelow'⟩ := hgh x b' hb'
  exact ⟨b'', hb'', hbelow.trans hbelow'⟩

/-! ## Checks -/

namespace Env

section Checks

variable {e e' : Env}

theorem checkValue_mono (h : FindsBelow e.find? e'.find?) {target : Ty} {v : Text}
    (hok : (e.checkValue target v).isOk) : (e'.checkValue target v).isOk := by
  rw [isOk_checkValue_iff] at hok ⊢
  rcases hok with hlit | ⟨hlit, hname, b, hb, hi, ha⟩
  · exact Or.inl hlit
  · obtain ⟨b', hb', hbelow⟩ := h v b hb
    exact Or.inr ⟨hlit, hname, b', hb', hbelow.isInitialized hi, by rw [hbelow.info]; exact ha⟩

theorem checkArgument_mono (h : FindsBelow e.find? e'.find?) {expected : Ty} {v : Text}
    (hok : (e.checkArgument expected v).isOk) : (e'.checkArgument expected v).isOk := by
  rw [isOk_checkArgument_iff] at hok ⊢
  rcases hok with hlit | ⟨hlit, b, hb, hi, ha⟩
  · exact Or.inl hlit
  · obtain ⟨b', hb', hbelow⟩ := h v b hb
    exact Or.inr ⟨hlit, b', hb', hbelow.isInitialized hi, by rw [hbelow.info]; exact ha⟩

theorem checkOperands_mono (h : FindsBelow e.find? e'.find?) {os : List Operand}
    (hok : (e.checkOperands os).isOk) : (e'.checkOperands os).isOk := by
  rw [isOk_checkOperands_iff] at hok ⊢
  intro o ho
  rw [isOk_checkOperand_iff]
  intro x hx
  obtain ⟨b, hb, hi, ht⟩ := isOk_checkOperand_iff.mp (hok o ho) x hx
  obtain ⟨b', hb', hbelow⟩ := h x b hb
  exact ⟨b', hb', hbelow.isInitialized hi, by rw [hbelow.info]; exact ht⟩

theorem checkCall_mono (h : FindsBelow e.find? e'.find?) (hg : e'.isGlobal = e.isGlobal)
    (hs : ∀ m s, e.signature? m = some s → e'.signature? m = some s) {line : Text}
    (hok : (e.checkCall line).isOk) : (e'.checkCall line).isOk := by
  obtain ⟨c, s, hc, hl, hsig, hne, hlen, hargs⟩ := isOk_checkCall_iff.mp hok
  refine isOk_checkCall_iff.mpr ⟨c, s, hc, hg.trans hl, hs _ _ hsig, hne, hlen, ?_⟩
  rw [isOk_checkArguments_iff] at hargs ⊢
  exact fun p v hpv => checkArgument_mono h (hargs p v hpv)

end Checks

/-! ## Statements

A relation between environments that every declaration and every assignment keeps is kept
by the lines of statements, if the first environment finds no more than the second. -/

/-- Declarations and assignments can be made side by side in related environments. -/
structure Aligned (R : Env → Env → Prop) : Prop where
  isGlobal : ∀ {e e'}, R e e' → e'.isGlobal = e.isGlobal
  finds : ∀ {e e'}, R e e' → FindsBelow e.find? e'.find?
  declare : ∀ {e e'}, R e e' → ∀ x ty isFinal i,
    MatchedBy R (e.declare x ty isFinal i) (e'.declare x ty isFinal i)
  assign : ∀ {e e'}, R e e' → ∀ x, MatchedBy R (e.assign x) (e'.assign x)

theorem result?_declare_of_declaresHere {e : Env} {x : Text} (h : e.declaresHere x) (ty : Ty)
    (isFinal i : Bool) : (e.declare x ty isFinal i).result? = none := by
  cases hl : e.locals with
  | nil =>
      have hd : e.globals.declares x := by simpa [declaresHere, hl] using h
      simp [declare, hl, Frame.declare_of_declares hd]
  | cons f outer =>
      have hd : f.declares x := by simpa [declaresHere, hl] using h
      simp [declare, hl, Frame.declare_of_declares hd]

/-- A declaration asks whether the name is free before it makes the variable, and making it
asks again. -/
theorem result?_declareClause (d : Declarator) (e : Env) (c : Clause) :
    (declareClause d e c).result? =
      if Name.isReserved c.name then none
      else
        match c.value with
        | none => if d.isFinal then none else (e.declare c.name d.ty d.isFinal false).result?
        | some v =>
          if (e.checkValue d.ty v).isOk then (e.declare c.name d.ty d.isFinal true).result?
          else none := by
  unfold declareClause
  by_cases hr : Name.isReserved c.name = true
  · rw [if_pos hr, if_pos hr]
    rfl
  rw [if_neg hr, if_neg hr]
  by_cases hd : e.declaresHere c.name = true
  · rw [if_pos hd]
    cases c.value <;> simp [result?_declare_of_declaresHere hd]
  rw [if_neg hd]
  cases c.value with
  | none => simp only; split <;> rfl
  | some v => exact result?_require e _ _

namespace Aligned

variable {R : Env → Env → Prop} {e e' : Env}

theorem declareClause (hR : Aligned R) (h : R e e') (d : Declarator) (c : Clause) :
    MatchedBy R (Env.declareClause d e c) (Env.declareClause d e' c) := by
  intro t ht
  rw [result?_declareClause] at ht ⊢
  by_cases hr : Name.isReserved c.name = true
  · simp [hr] at ht
  rw [if_neg hr] at ht ⊢
  cases hv : c.value with
  | none =>
      simp only [hv] at ht ⊢
      by_cases hf : d.isFinal = true
      · simp [hf] at ht
      · rw [if_neg hf] at ht ⊢
        exact hR.declare h _ _ _ _ t ht
  | some v =>
      simp only [hv] at ht ⊢
      split at ht
      · next hok =>
        rw [if_pos (checkValue_mono (hR.finds h) hok)]
        exact hR.declare h _ _ _ _ t ht
      · simp at ht

theorem assignClause (hR : Aligned R) (h : R e e') (line : Text) (c : Clause) :
    MatchedBy R (Env.assignClause line e c) (Env.assignClause line e' c) := by
  unfold Env.assignClause
  cases hb : e.find? c.name with
  | none => exact .fail _
  | some b =>
      obtain ⟨b', hb', hbelow⟩ := hR.finds h c.name b hb
      simp only [hb', hbelow.info]
      split
      · exact .fail _
      cases c.value with
      | none => exact .fail _
      | some v => exact .require (checkValue_mono (hR.finds h)) (hR.assign h c.name)

theorem declareLine (hR : Aligned R) (h : R e e') (pass : Pass) (line : Text) :
    MatchedBy R (e.declareLine pass line) (e'.declareLine pass line) := by
  unfold Env.declareLine
  rw [hR.isGlobal h]
  split
  · exact .ok h
  cases Declaration.parse line with
  | error fault => exact .fail _
  | ok d =>
      cases hrep : Clause.firstRepeated [] d.clauses with
      | some x => simp only [hrep]; exact .fail _
      | none =>
          simp only [hrep]
          exact .each (fun u v c huv => hR.declareClause huv d.declarator c) h d.clauses

theorem assignLine (hR : Aligned R) (h : R e e') (line : Text) :
    MatchedBy R (e.assignLine line) (e'.assignLine line) := by
  unfold Env.assignLine
  cases Assignment.parse? line with
  | none => exact .fail _
  | some cs =>
      cases hrep : Clause.firstRepeated [] cs with
      | some x => simp only [hrep]; exact .fail _
      | none =>
          simp only [hrep]
          exact .each (fun u v c huv => hR.assignClause huv line c) h cs

end Aligned
end Env

/-! ## Frames of a method -/

/-- The two frames of a method's body hold the same, but for copies of global variables that
hold a value in `globals`. -/
def Frame.BelowUpToCopies (globals f f' : Frame) : Prop :=
  ∀ x, f'.find? x = f.find? x ∨
    f'.find? x = none ∧ ∃ b b', f.find? x = some b ∧ globals.find? x = some b' ∧ b.Below b' ∧
      b'.isInitialized

namespace Frame.BelowUpToCopies

variable {globals f f' : Frame} {x : Text}

theorem refl (globals f : Frame) : BelowUpToCopies globals f f := fun _ => Or.inl rfl

theorem declares_eq_false (h : BelowUpToCopies globals f f') (hx : f.declares x = false) :
    f'.declares x = false := by
  rcases h x with heq | ⟨hnone, _⟩
  · rw [declares, heq]
    exact hx
  · rw [declares, hnone]
    rfl

theorem of_ne {g g' : Frame} (h : BelowUpToCopies globals f f')
    (hg : ∀ y, y ≠ x → g.find? y = f.find? y) (hg' : ∀ y, y ≠ x → g'.find? y = f'.find? y)
    (hx : g'.find? x = g.find? x ∨ g'.find? x = none ∧ ∃ b b', g.find? x = some b ∧
      globals.find? x = some b' ∧ b.Below b' ∧ b'.isInitialized) :
    BelowUpToCopies globals g g' := by
  intro y
  by_cases hy : y = x
  · subst hy
    exact hx
  · rw [hg y hy, hg' y hy]
    exact h y

theorem declare (h : BelowUpToCopies globals f f') (x : Text) (v : Variable) (i : Bool) :
    MatchedBy (BelowUpToCopies globals) (f.declare x v i) (f'.declare x v i) := by
  cases hx : f.declares x with
  | true => rw [Frame.declare_of_declares hx]; exact .fail _
  | false =>
      have hx' := h.declares_eq_false hx
      rw [Frame.declare, Frame.declare, hx, hx']
      refine .ok (h.of_ne (x := x) ?_ ?_ (Or.inl ?_))
      · intro y hy
        simp [Frame.find?, Ne.symm hy]
      · intro y hy
        simp [Frame.find?, Ne.symm hy]
      · simp [Frame.find?]

theorem assign (h : BelowUpToCopies globals f f') (hx : f'.find? x = f.find? x) :
    BelowUpToCopies globals (f.assign x) (f'.assign x) := by
  refine h.of_ne (fun y hy => find?_assign_of_ne hy) (fun y hy => find?_assign_of_ne hy)
    (Or.inl ?_)
  rw [find?_assign_self, find?_assign_self, hx]

/-- A copy that only one of the two frames needs. -/
theorem copy (h : BelowUpToCopies globals f f') (hx : f.declares x = false) {b : Binding}
    (hb : globals.find? x = some b) (hi : b.isInitialized) :
    BelowUpToCopies globals (f.declare x b.info true).state f' := by
  have hx' : f'.find? x = none := by simpa [declares] using h.declares_eq_false hx
  refine h.of_ne (fun y hy => find?_declare_of_ne hy _ _) (fun _ _ => rfl) (Or.inr ⟨hx', ?_⟩)
  exact ⟨_, b, find?_declare_self hx _ _, hb, ⟨rfl, fun _ => hi⟩, hi⟩

end Frame.BelowUpToCopies

/-! ## Environments -/

namespace Env

/-- The environment `e'` knows what `e` knows: the methods, the global variables and their
values.  The same blocks are open, and declare the same variables. -/
structure Below (e e' : Env) : Prop where
  signature : ∀ m s, e.signature? m = some s → e'.signature? m = some s
  globals : FindsBelow e.globals.find? e'.globals.find?
  allGlobal : e'.globals.AllGlobal
  locals : e.locals = [] ∧ e'.locals = [] ∨
    ∃ inner f f', e.locals = inner ++ [f] ∧ e'.locals = inner ++ [f'] ∧
      Frame.BelowUpToCopies e'.globals f f'

theorem find?_of_append {e : Env} {inner : List Frame} {f : Frame} (hl : e.locals = inner ++ [f])
    (x : Text) :
    e.find? x =
      ((inner.findSome? fun g => g.find? x).or (f.find? x)).or (e.globals.find? x) := by
  have hone (g : Frame) : ([g].findSome? fun g => g.find? x) = g.find? x := by
    cases hg : g.find? x <;> simp [hg]
  rw [find?, frames, hl, List.findSome?_append, List.findSome?_append, hone, hone]

/-- The frame of the method's body is the outermost one. -/
theorem onMethodFrame_append_of_ne_nil (op : Frame → Outcome Fault Frame) (inner : List Frame)
    {outer : List Frame} (h : outer ≠ []) :
    onMethodFrame op (inner ++ outer) = (onMethodFrame op outer).map (inner ++ ·) := by
  induction inner with
  | nil => rfl
  | cons g inner ih =>
      obtain ⟨f, fs, hfs⟩ := List.exists_cons_of_ne_nil (List.append_ne_nil_of_right_ne_nil inner h)
      have hcons : onMethodFrame op (g :: (inner ++ outer)) =
          (onMethodFrame op (inner ++ outer)).map (g :: ·) := by
        rw [hfs]
        rfl
      rw [List.cons_append, hcons, ih]
      rfl

theorem onMethodFrame_append (op : Frame → Outcome Fault Frame) (inner : List Frame) (f : Frame) :
    onMethodFrame op (inner ++ [f]) = (op f).map fun f => inner ++ [f] :=
  onMethodFrame_append_of_ne_nil op inner (List.cons_ne_nil f [])

theorem assignFirst_append (x : Text) (inner outer : List Frame) :
    assignFirst x (inner ++ outer) =
      if inner.any fun g => g.declares x then assignFirst x inner ++ outer
      else inner ++ assignFirst x outer := by
  induction inner with
  | nil => rfl
  | cons g inner ih =>
      cases hg : g.declares x with
      | true => simp [assignFirst, hg]
      | false =>
          simp only [List.cons_append, assignFirst, hg, ih, List.any_cons, Bool.false_or,
            Bool.false_eq_true, if_false]
          split <;> rfl

namespace Below

variable {e e' : Env}

theorem of_locals_eq_nil (hs : ∀ m s, e.signature? m = some s → e'.signature? m = some s)
    (hg : FindsBelow e.globals.find? e'.globals.find?) (hl : e.locals = []) (htop : e'.AtTop) :
    Below e e' :=
  ⟨hs, hg, htop.allGlobal, Or.inl ⟨hl, htop.locals⟩⟩

theorem allGlobal_left (h : Below e e') : e.globals.AllGlobal := by
  intro x b hb
  obtain ⟨b', hb', hbelow⟩ := h.globals x b hb
  rw [← hbelow.info]
  exact h.allGlobal x b' hb'

theorem length (h : Below e e') : e'.locals.length = e.locals.length := by
  rcases h.locals with ⟨hl, hl'⟩ | ⟨inner, f, f', hl, hl', _⟩ <;> simp [hl, hl']

theorem isGlobal (h : Below e e') : e'.isGlobal = e.isGlobal := by
  rw [Env.isGlobal, Env.isGlobal, depth, depth, h.length]

/-- The same blocks, with other frames. -/
theorem of_append (h : Below e e') (inner : List Frame) {f f' : Frame}
    (hf : Frame.BelowUpToCopies e'.globals f f') :
    Below { e with locals := inner ++ [f] } { e' with locals := inner ++ [f'] } :=
  ⟨h.signature, h.globals, h.allGlobal, Or.inr ⟨inner, f, f', rfl, rfl, hf⟩⟩

/-- Where a name is found.  Either both environments find the same binding in the open
blocks, or the richer one finds it in its global frame. -/
theorem find?_cases (h : Below e e') {inner : List Frame} {f f' : Frame}
    (hl : e.locals = inner ++ [f]) (hl' : e'.locals = inner ++ [f'])
    (hf : Frame.BelowUpToCopies e'.globals f f') {x : Text} {b : Binding}
    (hb : e.find? x = some b) :
    e'.find? x = some b ∧
        ((inner.any fun g => g.declares x) = true ∨ f.find? x = some b ∧ f'.find? x = some b) ∨
      ∃ b', e'.find? x = some b' ∧ e'.globals.find? x = some b' ∧ b.Below b' := by
  rw [find?_of_append hl] at hb
  rw [find?_of_append hl']
  cases hin : inner.findSome? fun g => g.find? x with
  | some c =>
      obtain rfl : c = b := by simpa [hin] using hb
      obtain ⟨g, hg, hgx⟩ := List.exists_of_findSome?_eq_some hin
      refine Or.inl ⟨by simp, Or.inl (List.any_eq_true.mpr ⟨g, hg, ?_⟩)⟩
      simp [Frame.declares, hgx]
  | none =>
      simp only [hin, Option.none_or] at hb ⊢
      cases hfx : f.find? x with
      | some c =>
          obtain rfl : c = b := by simpa [hfx] using hb
          rcases hf x with heq | ⟨hnone, c', b', hc', hb', hbelow, _⟩
          · rw [hfx] at heq
            exact Or.inl ⟨by simp [heq], Or.inr ⟨rfl, heq⟩⟩
          · obtain rfl : c = c' := Option.some.inj (hfx.symm.trans hc')
            exact Or.inr ⟨b', by simp [hnone, hb'], hb', hbelow⟩
      | none =>
          have hfx' : f'.find? x = none := by
            have hd : f.declares x = false := by simp [Frame.declares, hfx]
            simpa [Frame.declares] using hf.declares_eq_false hd
          obtain ⟨b', hb', hbelow⟩ := h.globals x b (by simpa [hfx] using hb)
          exact Or.inr ⟨b', by simp [hfx', hb'], hb', hbelow⟩

theorem finds (h : Below e e') : FindsBelow e.find? e'.find? := by
  intro x b hb
  rcases h.locals with ⟨hl, hl'⟩ | ⟨inner, f, f', hl, hl', hf⟩
  · rw [find?_of_locals_eq_nil hl] at hb
    rw [find?_of_locals_eq_nil hl']
    exact h.globals x b hb
  · rcases h.find?_cases hl hl' hf hb with ⟨hb', _⟩ | ⟨b', hb', _, hbelow⟩
    · exact ⟨b, hb', .refl b⟩
    · exact ⟨b', hb', hbelow⟩

/-- A variable that both environments declare in the frame of the method's body. -/
theorem onMethodFrame (h : Below e e') {inner : List Frame} {f f' : Frame}
    (hf : Frame.BelowUpToCopies e'.globals f f') (x : Text) (v : Variable) :
    MatchedBy (fun t t' => Below t t' ∧ t.locals ≠ [])
      ((Env.onMethodFrame (fun f => f.declare x v true) (inner ++ [f])).map fun fs =>
        { e with locals := fs })
      ((Env.onMethodFrame (fun f => f.declare x v true) (inner ++ [f'])).map fun fs =>
        { e' with locals := fs }) := by
  rw [onMethodFrame_append, onMethodFrame_append]
  show MatchedBy _ ((f.declare x v true).map fun g => ({ e with locals := inner ++ [g] } : Env))
    ((f'.declare x v true).map fun g => ({ e' with locals := inner ++ [g] } : Env))
  exact (hf.declare x v true).map fun g g' hgg => ⟨h.of_append inner hgg, by simp⟩

/-- An assignment to a global variable that the poorer environment copies.  The richer one
copies it as well, or has its value already. -/
theorem copy (h : Below e e') {inner : List Frame} {f f' : Frame} (hl' : e'.locals = inner ++ [f'])
    (hf : Frame.BelowUpToCopies e'.globals f f') {x : Text} {b' : Binding}
    (hb' : e'.find? x = some b') (hg' : e'.globals.find? x = some b') :
    MatchedBy (fun t t' => Below t t' ∧ t.locals ≠ [])
      ((Env.onMethodFrame (fun f => f.declare x b'.info true) (inner ++ [f])).map fun fs =>
        { e with locals := fs })
      (e'.assign x) := by
  cases hi' : b'.isInitialized with
  | false =>
      have hne' : e'.locals ≠ [] := by simp [hl']
      rw [assign_eq hne' h.allGlobal hb' hi', if_pos (h.allGlobal x b' hg'), hl']
      exact h.onMethodFrame hf x b'.info
  | true =>
      rw [assign_of_isInitialized hb' hi', onMethodFrame_append]
      cases hx : f.declares x with
      | true =>
          rw [Frame.declare_of_declares hx]
          exact .fail _
      | false =>
          have hok : f.declare x b'.info true = .ok (f.declare x b'.info true).state := by
            simp [Frame.declare, hx, Outcome.ok]
          have hself : ({ e' with locals := inner ++ [f'] } : Env) = e' := by rw [← hl']
          rw [hok, ← hself]
          have hne : inner ++ [(f.declare x b'.info true).state] ≠ [] := by simp
          exact .ok ⟨h.of_append inner (hf.copy hx hg' hi'), hne⟩

theorem assign (h : Below e e') (hne : e.locals ≠ []) (x : Text) :
    MatchedBy (fun t t' => Below t t' ∧ t.locals ≠ []) (e.assign x) (e'.assign x) := by
  cases hb : e.find? x with
  | none => rw [assign_of_find?_eq_none hb]; exact .fail _
  | some b =>
      cases hi : b.isInitialized with
      | true =>
          obtain ⟨b', hb', hbelow⟩ := h.finds x b hb
          rw [assign_of_isInitialized hb hi, assign_of_isInitialized hb' (hbelow.isInitialized hi)]
          exact .ok ⟨h, hne⟩
      | false =>
          rw [assign_eq hne h.allGlobal_left hb hi]
          rcases h.locals with ⟨hl, _⟩ | ⟨inner, f, f', hl, hl', hf⟩
          · exact absurd hl hne
          have hne' : e'.locals ≠ [] := by simp [hl']
          rcases h.find?_cases hl hl' hf hb with ⟨hb', hwhere⟩ | ⟨b', hb', hg', hbelow⟩
          · -- Both environments find the variable in the same open block.
            rw [assign_eq hne' h.allGlobal hb' hi, hl, hl']
            split
            · exact h.onMethodFrame hf x b.info
            · rw [assignFirst_append, assignFirst_append]
              split
              · exact .ok ⟨h.of_append _ hf, by simp⟩
              · next hin =>
                obtain ⟨hfx, hfx'⟩ := hwhere.resolve_left hin
                have hd : f.declares x = true := by simp [Frame.declares, hfx]
                have hd' : f'.declares x = true := by simp [Frame.declares, hfx']
                simp only [assignFirst, hd, hd', if_true]
                exact .ok ⟨h.of_append _ (hf.assign (hfx'.trans hfx.symm)), by simp⟩
          · have hglobal : b.info.isGlobal = true := hbelow.info ▸ h.allGlobal x b' hg'
            rw [if_pos hglobal, hl, ← hbelow.info]
            exact h.copy hl' hf hb' hg'

theorem declare (h : Below e e') (hne : e.locals ≠ []) (x : Text) (ty : Ty) (isFinal i : Bool) :
    MatchedBy (fun t t' => Below t t' ∧ t.locals ≠ []) (e.declare x ty isFinal i)
      (e'.declare x ty isFinal i) := by
  rcases h.locals with ⟨hl, _⟩ | ⟨inner, f, f', hl, hl', hf⟩
  · exact absurd hl hne
  cases inner with
  | nil =>
      rw [Env.declare, Env.declare, hl, hl']
      exact (hf.declare x ⟨ty, isFinal, false⟩ i).map fun g g' hgg =>
        ⟨h.of_append [] hgg, by simp⟩
  | cons g inner =>
      rw [Env.declare, Env.declare, hl, hl']
      refine MatchedBy.map (R := Eq) (fun g' hg' => ⟨g', hg', rfl⟩) fun g' _ hgg => ?_
      subst hgg
      exact ⟨h.of_append (g' :: inner) hf, by simp⟩

/-- Inside a method, statements can be followed in the richer environment. -/
theorem aligned : Aligned fun e e' => Below e e' ∧ e.locals ≠ [] where
  isGlobal h := h.1.isGlobal
  finds h := h.1.finds
  declare h := h.1.declare h.2
  assign h := h.1.assign h.2

/-! ## Rules -/

theorem headerLine (h : Below e e') (line : Text) :
    MatchedBy Below (e.headerLine .inspection line) (e'.headerLine .inspection line) := by
  intro t ht
  obtain ⟨hd, s, hhd, hl, hs, hn, rfl⟩ := result?_headerLine_eq_some ht
  have hl' : e'.locals = [] := List.length_eq_zero_iff.mp (by rw [h.length, hl]; rfl)
  refine ⟨{ e' with locals := [Frame.ofParameters s.parameters] }, ?_,
    h.of_append [] (.refl _ _)⟩
  simp only [Env.headerLine, hhd, isGlobal_eq_true hl', Bool.not_true, Bool.false_eq_true, if_false]
  rw [result?_enterMethod hl' (h.signature _ _ hs), if_pos hn]

theorem push (h : Below e e') (hne : e.locals ≠ []) : Below e.push e'.push := by
  have hlen := h.length
  rcases h.locals with ⟨hl, _⟩ | ⟨inner, f, f', hl, hl', hf⟩
  · exact absurd hl hne
  refine ⟨h.signature, h.globals, h.allGlobal,
    Or.inr ⟨Frame.empty (some e.locals.length) :: inner, f, f', ?_, ?_, hf⟩⟩
  · rw [Env.push, hl]
    rfl
  · rw [Env.push, hlen, hl']
    rfl

theorem openBlock (h : Below e e') (line : Text) :
    MatchedBy Below (e.openBlock line) (e'.openBlock line) := by
  unfold Env.openBlock
  rw [h.isGlobal]
  split
  · exact .fail _
  next hg =>
  have hne : e.locals ≠ [] := fun hl => hg (isGlobal_eq_true hl)
  cases Condition.operands? (Condition.text line) with
  | none => exact .fail _
  | some os => exact .require (checkOperands_mono h.finds) (.ok (h.push hne))

theorem closeBlock (h : Below e e') (afterReturn : Bool) :
    MatchedBy Below (e.closeBlock afterReturn) (e'.closeBlock afterReturn) := by
  have hbody : e'.isMethodBody = e.isMethodBody := by
    rw [isMethodBody, isMethodBody, depth, depth, h.length]
  unfold Env.closeBlock
  rw [hbody]
  split
  · exact .fail _
  rcases h.locals with ⟨hl, _⟩ | ⟨inner, f, f', hl, hl', hf⟩
  · rw [pop, hl]
    exact .fail _
  cases inner with
  | nil =>
      rw [pop, pop, hl, hl']
      exact .ok ⟨h.signature, h.globals, h.allGlobal, Or.inl ⟨rfl, rfl⟩⟩
  | cons g inner =>
      rw [pop, pop, hl, hl']
      exact .ok (h.of_append inner hf)

theorem apply (h : Below e e') (rule : Rule) (afterReturn : Bool) (line : Text) :
    MatchedBy Below (rule.apply afterReturn e line) (rule.apply afterReturn e' line) := by
  have hforget (t t' : Env) (ht : Below t t' ∧ t.locals ≠ []) : Below t t' := ht.1
  cases rule with
  | refuseComment => exact .fail _
  | declare =>
      show MatchedBy Below (e.declareLine .inspection line) (e'.declareLine .inspection line)
      cases hg : e.isGlobal with
      | true =>
          rw [Env.declareLine, Env.declareLine, h.isGlobal, hg]
          exact .ok h
      | false =>
          have hne : e.locals ≠ [] := fun hl => by simp [isGlobal_eq_true hl] at hg
          exact (aligned.declareLine ⟨h, hne⟩ .inspection line).mono hforget
  | enterMethod => exact h.headerLine line
  | openBlock => exact h.openBlock line
  | closeBlock => exact h.closeBlock afterReturn
  | call => exact .require (checkCall_mono h.finds h.isGlobal h.signature) (.ok h)
  | assign =>
      show MatchedBy Below (if e.isGlobal then .ok e else e.assignLine line)
        (if e'.isGlobal then .ok e' else e'.assignLine line)
      rw [h.isGlobal]
      split
      · exact .ok h
      next hg =>
      have hne : e.locals ≠ [] := fun hl => hg (isGlobal_eq_true hl)
      exact (aligned.assignLine ⟨h, hne⟩ line).mono hforget
  | leave =>
      refine .require (fun hok => ?_) (.ok h)
      rw [checkReturn] at hok ⊢
      rw [h.isGlobal]
      exact hok

end Below

theorem Below.inspectLine {e e' : Env} (h : Below e e') (afterReturn : Bool) (line : Text) :
    MatchedBy Below (e.inspectLine afterReturn line) (e'.inspectLine afterReturn line) := by
  unfold Env.inspectLine
  cases Rule.standard (Category.of line) with
  | none => exact .fail _
  | some rule => exact h.apply rule afterReturn line

end Env

/-! ## Walks -/

namespace Progress

/-- The same point of a walk, with more known at it. -/
structure Below (p p' : Progress) : Prop where
  env : p.env.Below p'.env
  nesting : p'.nesting = p.nesting
  afterReturn : p'.afterReturn = p.afterReturn

/-- Two inspections that begin outside every block. -/
theorem Below.of_env {e e' : Env} (h : e.Below e') : Below ⟨e, 0, false⟩ ⟨e', 0, false⟩ :=
  ⟨h, rfl, rfl⟩

theorem Below.inspect {p p' : Progress} (h : p.Below p') (line : Text) :
    MatchedBy Below (p.inspect line) (p'.inspect line) := by
  intro q hq
  rw [result?_inspect] at hq
  obtain ⟨t, ht, rfl⟩ := Option.map_eq_some_iff.mp hq
  obtain ⟨t', ht', hbelow⟩ := h.env.inspectLine p.afterReturn line t ht
  rw [← h.afterReturn] at ht'
  refine ⟨⟨t', p'.nesting, Category.of line = .returnStatement⟩, ?_, hbelow, h.nesting, rfl⟩
  rw [result?_inspect, ht']
  rfl

/-- What the inspection accepts, it accepts with more known. -/
theorem Below.each_inspect {p p' : Progress} (h : p.Below p') (lines : List Text) :
    MatchedBy Below (each Progress.inspect p lines) (each Progress.inspect p' lines) :=
  .each (fun _ _ line hq => hq.inspect line) h lines

end Progress
end SJava
