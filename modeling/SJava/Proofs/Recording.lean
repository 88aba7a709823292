/-
What an assignment records.

A variable that holds a value is left as it is.  Any other is marked where it stands, unless it
is a global variable and the assignment is inside a method: then the frame of the method's body
receives a copy that holds a value.  In all three cases one frame at most is replaced, by one
that differs from it at the assigned name alone (`Env.Replaced`), and the name stands for the
same variable as before.

The copy lasts for as long as the method's body is open.  No operation inside the body takes
it away, and none reaches the global frame, so the variable is without a value again when the
body is left (`Env.Holding`).
-/
import SJava.Proofs.Leaving

namespace SJava

namespace Frame

variable {f : Frame} {x : Text} {b : Binding}

theorem find?_declare_of_find? (h : f.find? x = some b) (y : Text) (v : Variable) (i : Bool) :
    (f.declare y v i).state.find? x = some b := by
  by_cases hy : x = y
  · subst hy
    have hd : f.declares x = true := by rw [declares, h]; rfl
    rw [declare_of_declares hd]
    exact h
  · rw [find?_declare_of_ne hy, h]

/-- A variable that holds a value is not changed by an assignment to it. -/
theorem find?_assign_of_find? (h : f.find? x = some b) (hi : b.isInitialized = true) (y : Text) :
    (f.assign y).find? x = some b := by
  by_cases hy : x = y
  · subst hy
    rw [find?_assign_self, h, ← hi]
    rfl
  · rw [find?_assign_of_ne hy, h]

end Frame

namespace Env

/-! ## One frame is replaced -/

/-- In `e'` the frame `f'` has taken the place that `f` has in `e`, between the inner frames and
the outer ones, and differs from `f` at the name `x` alone.  There it has the variable `b`, with a
value.  The inner frames have nothing under that name, and `f` had `b` there, unless `b` is a global
variable and `f` the frame of a method's body. -/
structure Replaced (e e' : Env) (x : Text) (b : Binding) (inner : List Frame) (f f' : Frame)
    (outer : List Frame) : Prop where
  methods : e'.methods = e.methods
  before : e.frames = inner ++ f :: outer
  after : e'.frames = inner ++ f' :: outer
  unseen : ∀ g ∈ inner, g.find? x = none
  replaced : f.find? x = some b ∨
    b.isInitialized = false ∧ b.info.isGlobal = true ∧ outer = [e.globals]
  found : f'.find? x = some { b with isInitialized := true }
  others : ∀ y, y ≠ x → f'.find? y = f.find? y

/-- The name `x`, which stands for `b` in `e`, stands for the same variable in `e'`, where the
variable holds a value.  All else is as in `e`. -/
structure Recorded (e : Env) (x : Text) (b : Binding) (e' : Env) : Prop where
  methods : e'.methods = e.methods
  depth : e'.depth = e.depth
  found : e'.find? x = some { b with isInitialized := true }
  others : ∀ y, y ≠ x → e'.find? y = e.find? y
  /-- Every frame has under every other name what it had. -/
  entries : ∀ y, y ≠ x → e'.arena.map (·.find? y) = e.arena.map (·.find? y)
  /-- One frame at most has been replaced: the one that has the variable, or that of a method's
  body if the variable is global. -/
  place : ∃ i : Nat, (∀ j, j ≠ i → e'.arena[j]? = e.arena[j]?) ∧
    (InnermostEntry e.arena x (some (i, b)) ∨
      b.isInitialized = false ∧ b.info.isGlobal = true ∧ 2 ≤ e.depth ∧ i = 1)

theorem depth_eq_length_frames (e : Env) : e.depth = e.frames.length := by
  simp [depth, frames]

theorem arena_eq_reverse_frames (e : Env) : e.arena = e.frames.reverse := by
  simp [arena, frames]

namespace Replaced

variable {e e' : Env} {x : Text} {b : Binding} {inner outer : List Frame} {f f' : Frame}

/-- The frames counted from the global one inwards. -/
theorem arenas (h : Replaced e e' x b inner f f' outer) :
    e.arena = outer.reverse ++ f :: inner.reverse ∧
      e'.arena = outer.reverse ++ f' :: inner.reverse := by
  rw [arena_eq_reverse_frames, arena_eq_reverse_frames, h.before, h.after]
  simp

theorem getElem?_arena (h : Replaced e e' x b inner f f' outer) {j : Nat} (hj : j ≠ outer.length) :
    e'.arena[j]? = e.arena[j]? := by
  rw [h.arenas.1, h.arenas.2, List.getElem?_append, List.getElem?_append]
  split
  · rfl
  · next hle =>
    rw [List.length_reverse] at hle ⊢
    obtain ⟨k, hk⟩ : ∃ k, j - outer.length = k + 1 := ⟨j - outer.length - 1, by omega⟩
    rw [hk, List.getElem?_cons_succ, List.getElem?_cons_succ]

theorem innermostEntry (h : Replaced e e' x b inner f f' outer) (hf : f.find? x = some b) :
    InnermostEntry e.arena x (some (outer.length, b)) := by
  rw [h.arenas.1]
  refine ⟨⟨f, by simp, hf⟩, fun j g hj hg => ?_⟩
  rw [List.getElem?_append_right (by simp; omega), List.length_reverse] at hg
  obtain ⟨k, hk⟩ : ∃ k, j - outer.length = k + 1 := ⟨j - outer.length - 1, by omega⟩
  rw [hk, List.getElem?_cons_succ] at hg
  exact h.unseen g (List.mem_reverse.mp (List.mem_of_getElem? hg))

theorem recorded (h : Replaced e e' x b inner f f' outer) : Recorded e x b e' where
  methods := h.methods
  depth := by
    rw [depth_eq_length_frames, depth_eq_length_frames, h.before, h.after]
    simp
  found := by
    have hunseen := List.findSome?_eq_none_iff.mpr h.unseen
    rw [find?, h.after, List.findSome?_append, hunseen, Option.none_or, List.findSome?_cons,
      h.found]
  others := by
    intro y hy
    rw [find?, find?, h.before, h.after, List.findSome?_append, List.findSome?_append,
      List.findSome?_cons, List.findSome?_cons, h.others y hy]
  entries := by
    intro y hy
    rw [h.arenas.1, h.arenas.2]
    simp [h.others y hy]
  place := by
    refine ⟨outer.length, fun j => h.getElem?_arena, ?_⟩
    rcases h.replaced with hf | ⟨hi, hg, houter⟩
    · exact Or.inl (h.innermostEntry hf)
    · refine Or.inr ⟨hi, hg, ?_, by rw [houter]; rfl⟩
      rw [depth_eq_length_frames, h.before, houter]
      simp

end Replaced

/-! ## Where a value is recorded -/

theorem assignFirst_eq {fs : List Frame} {x : Text} {b : Binding}
    (h : (fs.findSome? fun f => f.find? x) = some b) :
    ∃ inner f outer, fs = inner ++ f :: outer ∧ (∀ g ∈ inner, g.find? x = none) ∧
      f.find? x = some b ∧ assignFirst x fs = inner ++ f.assign x :: outer := by
  obtain ⟨inner, f, outer, rfl, hf, hinner⟩ := List.findSome?_eq_some_iff.mp h
  refine ⟨inner, f, outer, rfl, hinner, hf, ?_⟩
  have hany : (inner.any fun g => g.declares x) = false :=
    List.any_eq_false.mpr fun g hg => by simp [Frame.declares, hinner g hg]
  have hd : f.declares x = true := by rw [Frame.declares, hf]; rfl
  rw [assignFirst_append, hany, if_neg Bool.false_ne_true, assignFirst, if_pos hd]

variable {e : Env} {x : Text} {b : Binding}

/-- A variable that is not marked as global is found in one of the open blocks. -/
theorem findSome?_locals_of_find? (hg : e.globals.AllGlobal) (hb : e.find? x = some b)
    (hlocal : b.info.isGlobal = false) : (e.locals.findSome? fun f => f.find? x) = some b := by
  rw [find?, frames, List.findSome?_append] at hb
  cases hl : e.locals.findSome? fun f => f.find? x with
  | some b' => rwa [hl] at hb
  | none =>
      rw [hl, Option.none_or] at hb
      have hglobal : b.info.isGlobal = true := hg x b (by simpa using hb)
      rw [hlocal] at hglobal
      exact absurd hglobal (by decide)

/-- The assignment to a global variable without a value, inside a method. -/
theorem Layered.assign_copy (h : e.Layered) (hl : e.locals ≠ []) (hb : e.find? x = some b)
    (hi : b.isInitialized = false) (hg : b.info.isGlobal = true) :
    ∃ inner f, e.locals = inner ++ [f] ∧ (∀ g ∈ inner, g.find? x = none) ∧
      (f.declare x b.info true).state.find? x = some { b with isInitialized := true } ∧
      (e.assign x).state = { e with locals := inner ++ [(f.declare x b.info true).state] } := by
  have hlocals : e.locals = e.locals.dropLast ++ [e.locals.getLast hl] :=
    (List.dropLast_append_getLast hl).symm
  generalize e.locals.dropLast = inner, e.locals.getLast hl = f at hlocals
  -- No open block has a variable of that name, since it would hide the global one.
  have hnone := List.findSome?_eq_none_iff.mp (h.findSome?_locals hb hi hg)
  rw [hlocals, List.forall_mem_append, List.forall_mem_singleton] at hnone
  have hnew : f.declares x = false := by rw [Frame.declares, hnone.2]; rfl
  refine ⟨inner, f, hlocals, hnone.1, ?_, ?_⟩
  · rw [Frame.find?_declare_self hnew, ← name_of_find? hb]
  · rw [assign_eq hl h.globals.allGlobal hb hi, if_pos hg, hlocals, onMethodFrame_append]
    rfl

/-- Wherever the value of a variable is recorded, one frame is replaced. -/
theorem Layered.exists_replaced_assign (h : e.Layered) (hb : e.find? x = some b) :
    ∃ inner f f' outer, Replaced e (e.assign x).state x b inner f f' outer := by
  cases hi : b.isInitialized with
  | true =>
      obtain ⟨inner, f, outer, hframes, hf, hinner⟩ := List.findSome?_eq_some_iff.mp hb
      rw [assign_of_isInitialized hb hi]
      exact ⟨inner, f, f, outer, rfl, hframes, hframes, hinner, Or.inl hf, by rw [hf, ← hi],
        fun _ _ => rfl⟩
  | false =>
      by_cases hl : e.locals = []
      · have hframes : e.frames = [] ++ e.globals :: [] := by rw [frames, hl]
        have hf : e.globals.find? x = some b := by rw [← find?_of_locals_eq_nil hl, hb]
        rw [assign_of_locals_eq_nil hl hb hi]
        refine ⟨[], e.globals, e.globals.assign x, [], rfl, hframes, congrArg (· ++ _) hl,
          by simp, Or.inl hf, ?_, fun _ hy => Frame.find?_assign_of_ne hy⟩
        rw [Frame.find?_assign_self, hf]
        rfl
      · cases hg : b.info.isGlobal with
        | true =>
            obtain ⟨inner, f, hlocals, hinner, hfound, hassign⟩ := h.assign_copy hl hb hi hg
            rw [hassign]
            exact ⟨inner, f, (f.declare x b.info true).state, [e.globals], rfl,
              by rw [frames, hlocals]; simp, by simp [frames], hinner, Or.inr ⟨hi, hg, rfl⟩, hfound,
              fun _ hy => Frame.find?_declare_of_ne hy _ _⟩
        | false =>
            have hfind := findSome?_locals_of_find? h.globals.allGlobal hb hg
            obtain ⟨inner, f, outer, hlocals, hinner, hf, hfirst⟩ := assignFirst_eq hfind
            rw [assign_eq hl h.globals.allGlobal hb hi, hg, if_neg Bool.false_ne_true, hfirst]
            refine ⟨inner, f, f.assign x, outer ++ [e.globals], rfl, by rw [frames, hlocals]; simp,
              by simp [frames, Outcome.ok], hinner, Or.inl hf, ?_,
              fun _ hy => Frame.find?_assign_of_ne hy⟩
            rw [Frame.find?_assign_self, hf]
            rfl

/-! ## The copy of a global variable -/

/-- The environment is inside a method whose body has `b` under the name `x`, over the global
frame `g`. -/
structure Holding (g : Frame) (x : Text) (b : Binding) (t : Env) : Prop where
  layered : t.Layered
  globals : t.globals = g
  body : ∃ inner f, t.locals = inner ++ [f] ∧ f.find? x = some b

namespace Holding

variable {g : Frame} {t : Env}

theorem locals_ne_nil (h : Holding g x b t) : t.locals ≠ [] := by
  obtain ⟨inner, f, hl, _⟩ := h.body
  rw [hl]
  simp

theorem exists_arena (h : Holding g x b t) : ∃ f, t.arena[1]? = some f ∧ f.find? x = some b := by
  obtain ⟨inner, f, hl, hf⟩ := h.body
  exact ⟨f, by simp [arena, hl], hf⟩

theorem push (h : Holding g x b t) : Holding g x b t.push := by
  obtain ⟨inner, f, hl, hf⟩ := h.body
  refine ⟨h.layered.push, h.globals, Frame.empty (some t.locals.length) :: inner, f, ?_, hf⟩
  rw [Env.push, hl]
  rfl

/-- The block that is left is not the method's body. -/
theorem pop (h : Holding g x b t) (hdeep : 2 ≤ t.pop.state.depth) : Holding g x b t.pop.state := by
  have hlayered := h.layered.pop
  obtain ⟨inner, f, hl, hf⟩ := h.body
  cases inner with
  | nil =>
      rw [Env.pop, hl] at hdeep
      exact absurd hdeep (by simp [Outcome.ok, depth])
  | cons f' inner =>
      rw [Env.pop, hl] at hlayered ⊢
      exact ⟨hlayered, h.globals, inner, f, rfl, hf⟩

theorem addMethod (h : Holding g x b t) (s : Signature) : Holding g x b (t.addMethod s).state := by
  have hlayered := h.layered.addMethod s
  unfold Env.addMethod at hlayered ⊢
  split at hlayered <;> exact ⟨hlayered, h.globals, h.body⟩

/-- The innermost frame may be that of the method's body.  A variable that is there stays. -/
theorem declare (h : Holding g x b t) (y : Text) (ty : Ty) (isFinal i : Bool) :
    Holding g x b (t.declare y ty isFinal i).state := by
  have hglobals := (sameBlocks_declare h.locals_ne_nil y ty isFinal i).globals
  refine ⟨h.layered.declare y ty isFinal i, hglobals.trans h.globals, ?_⟩
  obtain ⟨inner, f, hl, hf⟩ := h.body
  cases inner with
  | nil =>
      rw [Env.declare, hl]
      exact ⟨[], _, rfl, Frame.find?_declare_of_find? hf y _ i⟩
  | cons f' inner =>
      rw [Env.declare, hl]
      exact ⟨_ :: inner, f, rfl, hf⟩

theorem enterMethod (h : Holding g x b t) (m : Text) : Holding g x b (t.enterMethod m).state := by
  unfold Env.enterMethod
  split
  · exact h
  · exact Outcome.state_each (fun u p hu => hu.declare _ _ _ _) h.push _

theorem assign (h : Holding g x b t) (hi : b.isInitialized = true) (y : Text) :
    Holding g x b (t.assign y).state := by
  have hglobals :=
    (sameBlocks_assign h.locals_ne_nil h.layered.globals.allGlobal y).globals
  refine ⟨h.layered.assign y, hglobals.trans h.globals, ?_⟩
  obtain ⟨inner, f, hl, hf⟩ := h.body
  unfold Env.assign
  split
  · exact ⟨inner, f, hl, hf⟩
  split
  · exact ⟨inner, f, hl, hf⟩
  split
  · rw [hl, onMethodFrame_append]
    exact ⟨inner, _, rfl, Frame.find?_declare_of_find? hf y _ _⟩
  split
  · show ∃ inner' f', assignFirst y t.locals = inner' ++ [f'] ∧ f'.find? x = some b
    rw [hl, assignFirst_append]
    split
    · exact ⟨assignFirst y inner, f, rfl, hf⟩
    · rw [assignFirst]
      split
      · exact ⟨inner, f.assign y, rfl, Frame.find?_assign_of_find? hf hi y⟩
      · exact ⟨inner, f, rfl, hf⟩
  · exact ⟨inner, f, hl, hf⟩

theorem apply (h : Holding g x b t) (hi : b.isInitialized = true) {op : Operation}
    (hdeep : 2 ≤ (op.apply t).state.depth) : Holding g x b (op.apply t).state := by
  cases op with
  | push => exact h.push
  | pop => exact h.pop hdeep
  | addMethod s => exact h.addMethod s
  | enterMethod m => exact h.enterMethod m
  | declare y ty isFinal isInitialized => exact h.declare y ty isFinal isInitialized
  | assign y => exact h.assign hi y

/-- What one operation keeps, a sequence keeps that does not leave the method. -/
theorem perform (h : Holding g x b t) (hi : b.isInitialized = true) {ops : List Operation}
    (hdeep : ∀ k ≤ ops.length, 2 ≤ (t.perform (ops.take k)).depth) :
    Holding g x b (t.perform ops) := by
  induction ops generalizing t with
  | nil => exact h
  | cons op ops ih =>
      have hfirst : 2 ≤ (op.apply t).state.depth := hdeep 1 (by simp)
      refine ih (h.apply hi hfirst) fun k hk => ?_
      exact hdeep (k + 1) (by simpa using hk)

/-- No operation inside a method reaches the global frame, not even the one that leaves it. -/
theorem globals_apply (h : Holding g x b t) (hi : b.isInitialized = true) (op : Operation) :
    (op.apply t).state.globals = g := by
  cases op with
  | push => exact h.globals
  | pop => exact (sameGlobals_pop t).globals.trans h.globals
  | addMethod s => exact (h.addMethod s).globals
  | enterMethod m => exact (h.enterMethod m).globals
  | declare y ty isFinal isInitialized => exact (h.declare y ty isFinal isInitialized).globals
  | assign y => exact (h.assign hi y).globals

/-- Back outside the method, every name stands for what the global frame has under it. -/
theorem find?_outside (h : Holding g x b t) (hi : b.isInitialized = true) {ops : List Operation}
    (hdeep : ∀ k < ops.length, 2 ≤ (t.perform (ops.take k)).depth)
    (hback : (t.perform ops).depth = 1) (y : Text) : (t.perform ops).find? y = g.find? y := by
  induction ops generalizing t with
  | nil => exact absurd (List.length_eq_zero_iff.mp (Nat.succ.inj hback)) h.locals_ne_nil
  | cons op ops ih =>
      cases ops with
      | nil =>
          have hl : (op.apply t).state.locals = [] :=
            List.length_eq_zero_iff.mp (Nat.succ.inj hback)
          show (op.apply t).state.find? y = _
          rw [find?_of_locals_eq_nil hl, h.globals_apply hi op]
      | cons op' ops =>
          have hfirst : 2 ≤ (op.apply t).state.depth := hdeep 1 (by simp)
          refine ih (h.apply hi hfirst) (fun k hk => ?_) hback
          exact hdeep (k + 1) (by simpa using hk)

end Holding

/-- In `e'` the frame of the method's body has received a copy of the global variable `b`, which
is without a value in `e`.  It keeps the copy for as long as the method is not left, whatever
operations follow, and when the method is left the variable is without a value again. -/
structure Lent (e : Env) (x : Text) (b : Binding) (e' : Env) : Prop where
  globals : e'.globals = e.globals
  copy : ∃ f, e'.arena[1]? = some f ∧ f.find? x = some { b with isInitialized := true }
  lasting : ∀ ops : List Operation,
    (∀ k ≤ ops.length, 2 ≤ (e'.perform (ops.take k)).depth) →
      ∃ f, (e'.perform ops).arena[1]? = some f ∧ f.find? x = some { b with isInitialized := true }
  returned : ∀ ops : List Operation,
    (∀ k < ops.length, 2 ≤ (e'.perform (ops.take k)).depth) →
      (e'.perform ops).depth = 1 → (e'.perform ops).find? x = some b

theorem Layered.lent_assign (h : e.Layered) (hb : e.find? x = some b)
    (hi : b.isInitialized = false) (hg : b.info.isGlobal = true) (hdeep : 2 ≤ e.depth) :
    Lent e x b (e.assign x).state := by
  have hl : e.locals ≠ [] := by
    intro hl
    rw [depth, hl] at hdeep
    exact absurd hdeep (by decide)
  obtain ⟨inner, f, hlocals, _, hfound, hassign⟩ := h.assign_copy hl hb hi hg
  have hholding : Holding e.globals x { b with isInitialized := true } (e.assign x).state :=
    ⟨h.assign x, by rw [hassign], inner, _, by rw [hassign], hfound⟩
  refine ⟨hholding.globals, hholding.exists_arena, fun ops hops => ?_, fun ops hops hback => ?_⟩
  · exact (hholding.perform rfl hops).exists_arena
  · rw [hholding.find?_outside rfl hops hback, h.find?_globals hb hi hg]

/-! ## The result -/

/-- In an environment that operations have led to, an assignment fails if and only if no frame
declares the name, and for no other reason.  Otherwise the name stands for the same variable
afterwards, which holds a value, and nothing else has changed; a global variable without a value
is lent to the method. -/
theorem assign_records_value_only (before : List Operation) (x : Text) :
    (((empty.perform before).assign x).failure ≠ none ↔
      ∀ f ∈ (empty.perform before).arena, f.declares x = false) ∧
    (∀ fault, ((empty.perform before).assign x).failure = some fault →
      fault = .variableNotDeclared x) ∧
    (((empty.perform before).assign x).failure = none →
      ∃ b, (empty.perform before).find? x = some b ∧
        Recorded (empty.perform before) x b ((empty.perform before).assign x).state ∧
        (b.isInitialized = false → b.info.isGlobal = true → 2 ≤ (empty.perform before).depth →
          Lent (empty.perform before) x b ((empty.perform before).assign x).state)) := by
  have hlayered := Layered.perform before
  generalize empty.perform before = e at hlayered ⊢
  have hnone : e.find? x = none ↔ ∀ f ∈ e.arena, f.declares x = false := by
    simp [find?, arena_eq_reverse_frames, Frame.declares]
  cases hb : e.find? x with
  | none =>
      rw [assign_of_find?_eq_none hb]
      refine ⟨iff_of_true (by simp [Outcome.fail]) (hnone.mp hb), fun fault h => ?_, fun h => ?_⟩
      · exact (Option.some.inj h).symm
      · exact absurd h (by simp [Outcome.fail])
  | some b =>
      have hok := hlayered.failure_assign hb
      refine ⟨iff_of_false (by simp [hok]) ?_, fun fault h => ?_, fun _ => ⟨b, rfl, ?_, ?_⟩⟩
      · rw [← hnone, hb]
        simp
      · rw [hok] at h
        exact absurd h (by simp)
      · obtain ⟨inner, f, f', outer, hreplaced⟩ := hlayered.exists_replaced_assign hb
        exact hreplaced.recorded
      · exact hlayered.lent_assign hb

/-- The global variable that `sampleBefore` declares. -/
def sampleGlobal : Binding := ⟨['g'], ⟨.int, false, true⟩, false⟩

-- The assignment stands in a block of the method's body, so the copy is not made in the current
-- frame.
theorem sampleGlobal_is_lent :
    (empty.perform (sampleBefore ++ [.push])).depth = 3 ∧
      (empty.perform (sampleBefore ++ [.push])).find? ['g'] = some sampleGlobal ∧
      Recorded (empty.perform (sampleBefore ++ [.push])) ['g'] sampleGlobal
        ((empty.perform (sampleBefore ++ [.push])).assign ['g']).state ∧
      Lent (empty.perform (sampleBefore ++ [.push])) ['g'] sampleGlobal
        ((empty.perform (sampleBefore ++ [.push])).assign ['g']).state := by
  have hfind : (empty.perform (sampleBefore ++ [.push])).find? ['g'] = some sampleGlobal := by
    decide
  obtain ⟨b, hb, hrecorded, hlent⟩ :=
    (assign_records_value_only (sampleBefore ++ [.push]) ['g']).2.2 (by decide)
  obtain rfl : sampleGlobal = b := Option.some.inj (hfind.symm.trans hb)
  exact ⟨by decide, hfind, hrecorded, hlent rfl rfl (by decide)⟩

end Env
end SJava
