/-
The frames as a list with links.

Counted from the global frame outwards in, the frames of an environment form a list in
which every frame names the position of the one that encloses it.  `FrameAt` says what such
a list may hold at a position, and every operation on environments keeps it, whether it
succeeds or fails: the links go from each position to the one before it, a name stands in a
frame once, the global frame marks all of its variables as global, and a variable that any
other frame marks as global is the copy that a method's body has received for a global
variable without a value.

The walk that looks for a name by following the links (`Resolves`) therefore comes to an
end inside the list, and it stops where `Env.find?` stops.
-/
import SJava.Proofs.Frames

namespace SJava
namespace Env

/-! ## Sequences of operations -/

/-- A call of one of the operations that change an environment. -/
inductive Operation where
  | push
  | pop
  | addMethod (s : Signature)
  | enterMethod (m : Text)
  | declare (x : Text) (ty : Ty) (isFinal isInitialized : Bool)
  | assign (x : Text)
  deriving DecidableEq, Repr

def Operation.apply : Operation → Env → Outcome Fault Env
  | .push, e => .ok e.push
  | .pop, e => e.pop
  | .addMethod s, e => e.addMethod s
  | .enterMethod m, e => e.enterMethod m
  | .declare x ty isFinal isInitialized, e => e.declare x ty isFinal isInitialized
  | .assign x, e => e.assign x

/-- The environment after a sequence of calls.  A call that fails does not end the
sequence: the next one finds what it has left behind. -/
def perform (e : Env) (ops : List Operation) : Env :=
  ops.foldl (fun e op => (op.apply e).state) e

/-- What every call keeps, failing or not, holds after every sequence of calls. -/
theorem perform_induction {P : Env → Prop}
    (hstep : ∀ (e : Env) (op : Operation), P e → P (op.apply e).state) {e : Env} (he : P e)
    (ops : List Operation) : P (e.perform ops) := by
  induction ops generalizing e with
  | nil => exact he
  | cons op ops ih => exact ih (hstep e op he)

/-! ## What the list of frames may hold -/

/-- The frames from the global one inwards. -/
def arena (e : Env) : List Frame := e.globals :: e.locals.reverse

/-- What a variable at position `i` of the frames may be, over the global frame `g`.  The
global frame has global variables only.  A variable of another frame that is marked as
global stands in the frame of a method's body and holds a value, and it is but for that the
variable of the global frame, which lacks one. -/
def BindingAt (g : Frame) (i : Nat) (b : Binding) : Prop :=
  if i = 0 then b.info.isGlobal = true
  else b.info.isGlobal = true →
    i = 1 ∧ b.isInitialized = true ∧ { b with isInitialized := false } ∈ g.bindings

/-- What the frame at position `i` may be, over the global frame `g`. -/
structure FrameAt (g : Frame) (i : Nat) (f : Frame) : Prop where
  parent : f.parent = if i = 0 then none else some (i - 1)
  nodup : (f.bindings.map (·.name)).Nodup
  bindings : ∀ b ∈ f.bindings, BindingAt g i b

/-- All frames are what they may be at their positions. -/
structure Coherent (e : Env) : Prop where
  nonempty : e.arena ≠ []
  frameAt : ∀ i f, e.arena[i]? = some f → FrameAt e.globals i f

/-! ## Frames -/

theorem bindingAt_zero {g : Frame} {b : Binding} : BindingAt g 0 b ↔ b.info.isGlobal = true := by
  simp [BindingAt]

/-- A variable that is not marked as global may stand in the frame of every block. -/
theorem bindingAt_of_isGlobal_eq_false {g : Frame} {i : Nat} {b : Binding} (hi : i ≠ 0)
    (hb : b.info.isGlobal = false) : BindingAt g i b := by
  simp [BindingAt, hi, hb]

/-- A value changes neither the mark nor the variable that a copy is compared with. -/
theorem BindingAt.assign {g : Frame} {i : Nat} {b : Binding} (h : BindingAt g i b) :
    BindingAt g i { b with isInitialized := true } := by
  unfold BindingAt at h ⊢
  split
  · next hi => rwa [if_pos hi] at h
  · next hi =>
    rw [if_neg hi] at h
    exact fun hg => ⟨(h hg).1, rfl, (h hg).2.2⟩

namespace FrameAt

variable {g f : Frame} {i : Nat}

/-- The global frame is judged without regard to what it is compared with. -/
theorem of_zero (h : FrameAt g 0 f) (g' : Frame) : FrameAt g' 0 f :=
  ⟨h.parent, h.nodup, fun b hb => bindingAt_zero.mpr (bindingAt_zero.mp (h.bindings b hb))⟩

theorem empty (g : Frame) (n : Nat) : FrameAt g (n + 1) (Frame.empty (some n)) where
  parent := rfl
  nodup := List.nodup_nil
  bindings := by simp [Frame.empty]

theorem declare (h : FrameAt g i f) {x : Text} {v : Variable} {isInitialized : Bool}
    (hb : BindingAt g i ⟨x, v, isInitialized⟩) :
    FrameAt g i (f.declare x v isInitialized).state := by
  unfold Frame.declare
  split
  · exact h
  next hx =>
  refine ⟨h.parent, List.nodup_cons.mpr ⟨?_, h.nodup⟩, List.forall_mem_cons.mpr ⟨hb, h.bindings⟩⟩
  intro hmem
  obtain ⟨b, hbf, hbx⟩ := List.mem_map.mp hmem
  refine hx ?_
  rw [Frame.declares, Frame.find?, List.find?_isSome]
  exact ⟨b, hbf, by simpa using hbx⟩

theorem assign (h : FrameAt g i f) (x : Text) : FrameAt g i (f.assign x) where
  parent := h.parent
  nodup := by
    have hnames : (f.assign x).bindings.map (·.name) = f.bindings.map (·.name) := by
      simp only [Frame.assign, List.map_map]
      refine List.map_congr_left fun b _ => ?_
      simp only [Function.comp_apply]
      split <;> rfl
    rw [hnames]
    exact h.nodup
  bindings := by
    intro b hb
    obtain ⟨c, hc, rfl⟩ := List.mem_map.mp hb
    by_cases hx : c.name = x
    · rw [if_pos hx]
      exact (h.bindings c hc).assign
    · rw [if_neg hx]
      exact h.bindings c hc

theorem allGlobal (h : FrameAt g 0 f) : f.AllGlobal :=
  fun _ b hb => bindingAt_zero.mp (h.bindings b (List.mem_of_find?_eq_some hb))

end FrameAt

/-! ## Stacks of frames

The operations work on the stack from the innermost frame outwards, so that is the
direction in which they are followed. -/

/-- The frames, from the innermost outwards, are what they may be at their positions. -/
def Stacked (g : Frame) : List Frame → Prop
  | [] => True
  | f :: outer => FrameAt g outer.length f ∧ Stacked g outer

/-- The frames of the environment are what they may be at their positions. -/
def Layered (e : Env) : Prop := Stacked e.globals e.frames

namespace Stacked

variable {g : Frame} {fs : List Frame}

/-- The same, position by position. -/
theorem frameAt (h : Stacked g fs) {i : Nat} {f : Frame} (hf : fs.reverse[i]? = some f) :
    FrameAt g i f := by
  induction fs with
  | nil => simp at hf
  | cons f' outer ih =>
      rw [List.reverse_cons] at hf
      by_cases hi : i < outer.reverse.length
      · rw [List.getElem?_append_left hi] at hf
        exact ih h.2 hf
      · rw [List.getElem?_append_right (by omega), List.getElem?_singleton] at hf
        split at hf
        · next hlen =>
          obtain rfl := Option.some.inj hf
          have hi' : i = outer.length := by
            rw [List.length_reverse] at hi hlen
            omega
          exact hi' ▸ h.1
        · simp at hf

/-- The frame of a block does not have position zero. -/
theorem exists_frameAt_succ {g₀ f : Frame} (h : Stacked g (fs ++ [g₀])) (hf : f ∈ fs) :
    ∃ n, FrameAt g (n + 1) f := by
  induction fs with
  | nil => simp at hf
  | cons f' outer ih =>
      rcases List.mem_cons.mp hf with rfl | hf
      · exact ⟨outer.length, by simpa using h.1⟩
      · exact ih h.2 hf

theorem assignFirst {g₀ : Frame} (h : Stacked g (fs ++ [g₀])) (x : Text) :
    Stacked g (Env.assignFirst x fs ++ [g₀]) := by
  induction fs with
  | nil => exact h
  | cons f outer ih =>
      rw [Env.assignFirst]
      split
      · exact ⟨h.1.assign x, h.2⟩
      · refine ⟨?_, ih h.2⟩
        simpa [length_assignFirst] using h.1

/-- The frame of a method's body may receive a copy of a global variable without a value. -/
theorem onMethodFrame {g₀ : Frame} (h : Stacked g (fs ++ [g₀])) {x : Text} {v : Variable}
    (hv : ⟨x, v, false⟩ ∈ g.bindings) :
    Stacked g ((Env.onMethodFrame (fun f => f.declare x v true) fs).state ++ [g₀]) := by
  induction fs with
  | nil => exact h
  | cons f outer ih =>
      cases outer with
      | nil => exact ⟨h.1.declare fun _ => ⟨rfl, rfl, hv⟩, h.2⟩
      | cons f' outer =>
          refine ⟨?_, ih h.2⟩
          simpa [length_state_onMethodFrame] using h.1

end Stacked

/-! ## Operations -/

namespace Layered

variable {e : Env}

theorem globals (h : Layered e) : FrameAt e.globals 0 e.globals := by
  refine Stacked.frameAt h (i := 0) ?_
  simp [frames]

/-- With no block open, the global frame is all there is. -/
theorem of_globals {e : Env} (hl : e.locals = []) (h : FrameAt e.globals 0 e.globals) :
    Layered e := by
  rw [Layered, frames, hl]
  exact ⟨h, trivial⟩

theorem empty : Layered Env.empty :=
  of_globals rfl ⟨rfl, List.nodup_nil, by simp [Env.empty, Frame.empty]⟩

theorem push (h : Layered e) : Layered e.push := by
  have hlen : e.frames.length = e.locals.length + 1 := by simp [frames]
  refine ⟨?_, h⟩
  show FrameAt e.globals e.frames.length (Frame.empty (some e.locals.length))
  rw [hlen]
  exact FrameAt.empty e.globals e.locals.length

theorem pop (h : Layered e) : Layered e.pop.state := by
  unfold Env.pop
  split
  · exact h
  · next f outer hl =>
    rw [Layered, frames, hl] at h
    exact h.2

theorem addMethod (h : Layered e) (s : Signature) : Layered (e.addMethod s).state := by
  unfold Env.addMethod
  split <;> exact h

theorem declare (h : Layered e) (x : Text) (ty : Ty) (isFinal isInitialized : Bool) :
    Layered (e.declare x ty isFinal isInitialized).state := by
  unfold Env.declare
  split
  · next hl =>
    have hb : BindingAt e.globals 0 ⟨x, ⟨ty, isFinal, true⟩, isInitialized⟩ :=
      bindingAt_zero.mpr rfl
    exact of_globals hl ((h.globals.declare hb).of_zero _)
  · next f outer hl =>
    rw [Layered, frames, hl] at h
    exact ⟨h.1.declare (bindingAt_of_isGlobal_eq_false (by simp) rfl), h.2⟩

/-- The parameters are declared one after another, and the frame may be left with some of
them only. -/
theorem enterMethod (h : Layered e) (m : Text) : Layered (e.enterMethod m).state := by
  unfold Env.enterMethod
  split
  · exact h
  · exact Outcome.state_each (fun t p ht => ht.declare _ _ _ _) h.push _

/-- A global variable without a value stands in none of the other frames, since a copy of it
would hold one. -/
theorem findSome?_locals (h : Layered e) {x : Text} {b : Binding} (hb : e.find? x = some b)
    (hi : b.isInitialized = false) (hg : b.info.isGlobal = true) :
    (e.locals.findSome? fun f => f.find? x) = none := by
  cases hl : e.locals.findSome? fun f => f.find? x with
  | none => rfl
  | some b' =>
      obtain rfl : b' = b := by
        simpa [Env.find?, frames, List.findSome?_append, hl] using hb
      obtain ⟨f, hf, hfb⟩ := List.exists_of_findSome?_eq_some hl
      obtain ⟨n, hat⟩ := Stacked.exists_frameAt_succ h hf
      have hinit : b'.isInitialized = true :=
        (hat.bindings b' (List.mem_of_find?_eq_some hfb) hg).2.1
      rw [hi] at hinit
      exact absurd hinit (by simp)

theorem find?_globals (h : Layered e) {x : Text} {b : Binding} (hb : e.find? x = some b)
    (hi : b.isInitialized = false) (hg : b.info.isGlobal = true) :
    e.globals.find? x = some b := by
  have hl := h.findSome?_locals hb hi hg
  simpa [Env.find?, frames, List.findSome?_append, hl] using hb

theorem assign (h : Layered e) (x : Text) : Layered (e.assign x).state := by
  cases hb : e.find? x with
  | none =>
      rw [assign_of_find?_eq_none hb]
      exact h
  | some b =>
      cases hi : b.isInitialized with
      | true =>
          rw [assign_of_isInitialized hb hi]
          exact h
      | false =>
          by_cases hl : e.locals = []
          · rw [assign_of_locals_eq_nil hl hb hi]
            exact of_globals hl ((h.globals.assign x).of_zero _)
          · rw [assign_eq hl h.globals.allGlobal hb hi]
            split
            · next hg =>
              have hcopy : ⟨x, b.info, false⟩ ∈ e.globals.bindings := by
                have hmem := List.mem_of_find?_eq_some (h.find?_globals hb hi hg)
                rwa [← name_of_find? hb, ← hi]
              exact Stacked.onMethodFrame h hcopy
            · exact Stacked.assignFirst h x

/-- A variable that is found can be given a value: where a copy has to be made, there is room
for it. -/
theorem failure_assign (h : Layered e) {x : Text} {b : Binding} (hb : e.find? x = some b) :
    (e.assign x).failure = none := by
  cases hi : b.isInitialized with
  | true =>
      rw [assign_of_isInitialized hb hi]
      rfl
  | false =>
      by_cases hl : e.locals = []
      · rw [assign_of_locals_eq_nil hl hb hi]
        rfl
      · rw [assign_eq hl h.globals.allGlobal hb hi]
        split
        · next hg =>
          have hnone := List.findSome?_eq_none_iff.mp (h.findSome?_locals hb hi hg)
          exact failure_onMethodFrame_declare (fun f hf => by simp [Frame.declares, hnone f hf]) _ _
        · rfl

theorem apply (h : Layered e) (op : Operation) : Layered (op.apply e).state := by
  cases op with
  | push => exact h.push
  | pop => exact h.pop
  | addMethod s => exact h.addMethod s
  | enterMethod m => exact h.enterMethod m
  | declare x ty isFinal isInitialized => exact h.declare x ty isFinal isInitialized
  | assign x => exact h.assign x

theorem perform (ops : List Operation) : Layered (Env.empty.perform ops) :=
  perform_induction (fun _ op h => h.apply op) empty ops

theorem coherent (h : Layered e) : Coherent e where
  nonempty := List.cons_ne_nil _ _
  frameAt i f hf := by
    refine Stacked.frameAt h ?_
    rwa [frames, List.reverse_append]

end Layered

/-! ## Following the links -/

/-- The walk for `x` through the frames `fs` that starts at a position, or nowhere.  It ends
with what the first frame on its way that declares `x` has for it, and with nothing if the
links end before.  No rule lets it go on from a position outside of the list. -/
inductive Resolves (fs : List Frame) (x : Text) : Option Nat → Option (Nat × Binding) → Prop
  | nowhere : Resolves fs x none none
  | found {i : Nat} {f : Frame} {b : Binding} (hf : fs[i]? = some f) (hb : f.find? x = some b) :
      Resolves fs x (some i) (some (i, b))
  | up {i : Nat} {f : Frame} {r : Option (Nat × Binding)} (hf : fs[i]? = some f)
      (hb : f.find? x = none) (hr : Resolves fs x f.parent r) : Resolves fs x (some i) r

/-- What the innermost of the frames that declare `x` has for it, and where. -/
def InnermostEntry (fs : List Frame) (x : Text) : Option (Nat × Binding) → Prop
  | none => ∀ f ∈ fs, f.find? x = none
  | some (i, b) =>
    (∃ f, fs[i]? = some f ∧ f.find? x = some b) ∧
      ∀ (j : Nat) (f : Frame), i < j → fs[j]? = some f → f.find? x = none

namespace InnermostEntry

variable {fs : List Frame} {x : Text} {f : Frame}

theorem concat_found (fs : List Frame) {b : Binding} (hb : f.find? x = some b) :
    InnermostEntry (fs ++ [f]) x (some (fs.length, b)) := by
  refine ⟨⟨f, by simp, hb⟩, fun j f' hj hf' => ?_⟩
  rw [List.getElem?_eq_none (by simp; omega)] at hf'
  exact absurd hf' (by simp)

theorem concat_none (hb : f.find? x = none) {r : Option (Nat × Binding)}
    (h : InnermostEntry fs x r) : InnermostEntry (fs ++ [f]) x r := by
  match r, h with
  | none, h => exact List.forall_mem_append.mpr ⟨h, by simpa using hb⟩
  | some (i, b), ⟨⟨f', hf', hb'⟩, hinner⟩ =>
      obtain ⟨hi, _⟩ := List.getElem?_eq_some_iff.mp hf'
      refine ⟨⟨f', by rwa [List.getElem?_append_left hi], hb'⟩, fun j f'' hj hf'' => ?_⟩
      by_cases hjl : j < fs.length
      · rw [List.getElem?_append_left hjl] at hf''
        exact hinner j f'' hj hf''
      · rw [List.getElem?_append_right (by omega), List.getElem?_singleton] at hf''
        split at hf''
        · rwa [← Option.some.inj hf'']
        · simp at hf''

end InnermostEntry

namespace Resolves

variable {fs : List Frame} {x : Text}

theorem unique {start : Option Nat} {r r' : Option (Nat × Binding)} (h : Resolves fs x start r)
    (h' : Resolves fs x start r') : r' = r := by
  induction h generalizing r' with
  | nowhere =>
      cases h'
      rfl
  | found hf hb =>
      cases h' with
      | found hf' hb' =>
          obtain rfl := Option.some.inj (hf.symm.trans hf')
          rw [hb] at hb'
          rw [Option.some.inj hb']
      | up hf' hb' _ =>
          obtain rfl := Option.some.inj (hf.symm.trans hf')
          simp [hb] at hb'
  | up hf hb _ ih =>
      cases h' with
      | found hf' hb' =>
          obtain rfl := Option.some.inj (hf.symm.trans hf')
          simp [hb] at hb'
      | up hf' _ hr' =>
          obtain rfl := Option.some.inj (hf.symm.trans hf')
          exact ih hr'

/-- Where every position is linked to the one before it, the walk from position `i` comes to
an end after the frames up to `i`. -/
theorem exists_of_linked
    (hlink : ∀ i f, fs[i]? = some f → f.parent = if i = 0 then none else some (i - 1)) {i : Nat}
    (hi : i ≤ fs.length) :
    ∃ r, Resolves fs x (if i = 0 then none else some (i - 1)) r ∧
      InnermostEntry (fs.take i) x r ∧
      r.map (·.2) = (fs.take i).reverse.findSome? fun f => f.find? x := by
  induction i with
  | zero => exact ⟨none, .nowhere, by simp [InnermostEntry], rfl⟩
  | succ i ih =>
      obtain ⟨r, hr, hinner, hfind⟩ := ih (by omega)
      have hlen : (fs.take i).length = i := by simp; omega
      have hf : fs[i]? = some fs[i] := List.getElem?_eq_getElem (by omega)
      have htake : fs.take (i + 1) = fs.take i ++ [fs[i]] := by
        rw [List.take_add_one, hf]
        rfl
      simp only [htake, List.reverse_append, List.reverse_singleton, List.singleton_append,
        List.findSome?_cons]
      cases hb : fs[i].find? x with
      | none =>
          rw [← hlink i _ hf] at hr
          exact ⟨r, .up hf hb hr, hinner.concat_none hb, hfind⟩
      | some b =>
          have hentry := InnermostEntry.concat_found (fs.take i) hb
          rw [hlen] at hentry
          exact ⟨some (i, b), .found hf hb, hentry, rfl⟩

end Resolves

/-! ## The result -/

/-- After every sequence of operations, whether they succeed or fail, the frames are what
they may be at their positions.  So the walk for a name that starts at the innermost frame
ends with exactly one answer, which is the entry of the innermost frame that declares the
name and the one that `find?` gives. -/
theorem perform_keeps_coherence (ops : List Operation) :
    (empty.perform ops).Coherent ∧
      ∀ x, ∃ r,
        (∀ r', Resolves (empty.perform ops).arena x (some ((empty.perform ops).depth - 1)) r' ↔
          r' = r) ∧
        InnermostEntry (empty.perform ops).arena x r ∧
        (empty.perform ops).find? x = r.map (·.2) := by
  have hlayered := Layered.perform ops
  generalize empty.perform ops = e at hlayered ⊢
  have hcoherent := hlayered.coherent
  refine ⟨hcoherent, fun x => ?_⟩
  have hlength : e.arena.length = e.depth := by simp [arena, depth]
  have hpos : e.depth ≠ 0 := Nat.succ_ne_zero _
  obtain ⟨r, hr, hinner, hfind⟩ := Resolves.exists_of_linked (x := x)
    (fun i f hf => (hcoherent.frameAt i f hf).parent) (Nat.le_refl e.arena.length)
  rw [List.take_length] at hinner hfind
  have hframes : e.arena.reverse = e.frames := by simp [arena, frames]
  rw [hlength, if_neg hpos] at hr
  refine ⟨r, fun r' => ⟨hr.unique, fun h => h ▸ hr⟩, hinner, ?_⟩
  rw [hfind, hframes]
  rfl

-- A method whose second parameter repeats the first is entered half way, and the assignment
-- to a global variable in a block of its body leaves the copy beside the first parameter.
example :
    (empty.perform [.declare ['g'] .int false false,
      .addMethod ⟨['m'], [⟨['a'], .char, true⟩, ⟨['a'], .int, false⟩]⟩, .enterMethod ['m'],
      .push, .assign ['g'], .pop]).arena =
    [⟨none, [⟨['g'], ⟨.int, false, true⟩, false⟩]⟩,
      ⟨some 0, [⟨['g'], ⟨.int, false, true⟩, true⟩, ⟨['a'], ⟨.char, true, false⟩, true⟩]⟩] := by
  decide

end Env
end SJava
