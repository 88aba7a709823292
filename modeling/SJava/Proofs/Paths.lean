/-
Environments that go through the events of a text one by one.

A step carries out one event, and keeps the environment in step with the text.  Inside a
method the frames of the open blocks change and the global frame is the one that the whole
text leads to (`Env.Traces`); outside every method there is only the global frame, and it
grows.  Where the event is a use, the frames tell which declaration is meant and that it
has been given a value.
-/
import SJava.Proofs.Program
import SJava.Proofs.Tracing

namespace SJava

open Text

/-! ## Events carried out in an environment -/

namespace Env

/-- An event of the text, carried out without a fault. -/
inductive Step : Env → Event → Env → Prop where
  | use {e : Env} {x : Text} {b : Binding} :
      e.find? x = some b → b.isInitialized → Step e (.use x) e
  | declare {e e' : Env} {x : Text} {ty : Ty} {isFinal hasValue : Bool} :
      (e.declare x ty isFinal hasValue).result? = some e' → Step e (.declare x hasValue) e'
  | assign {e e' : Env} {x : Text} : (e.assign x).result? = some e' → Step e (.assign x) e'
  | enter {e : Env} (ps : List Parameter) : e.locals = [] →
      Step e (.enter (ps.map (·.name))) { e with locals := [Frame.ofParameters ps] }
  | openBlock (e : Env) : Step e .openBlock e.push
  | close (e : Env) : Step e .close e.leave

inductive Path : Env → List Event → Env → Prop where
  | nil (e : Env) : Path e [] e
  | cons {e t e' : Env} {ev : Event} {evs : List Event} :
      Step e ev t → Path t evs e' → Path e (ev :: evs) e'

theorem Path.single {e e' : Env} {ev : Event} (h : Step e ev e') : Path e [ev] e' :=
  .cons h (.nil e')

theorem Path.append {e t e' : Env} {as bs : List Event} (h : Path e as t) (h' : Path t bs e') :
    Path e (as ++ bs) e' := by
  induction h with
  | nil e => exact h'
  | cons hstep _ ih => exact .cons hstep (ih h')

end Env

/-! ## Inside a method -/

variable {E : List Event} {i : Nat}

theorem soundAt_of_ne {ev : Event} (hev : E[i]? = some ev) (h : ∀ x, ev ≠ .use x) :
    SoundAt E i := by
  intro x hx
  exact absurd (Option.some.inj (hev.symm.trans hx)) (h x)

/-- What each step keeps holds along a path, and so does at each of its positions what a step
makes true there.  The events are those of the text from position `i` on. -/
theorem Env.Path.run {I : Nat → Env → Prop} {C : Nat → Event → Prop} {S : Nat → Prop}
    (hstep : ∀ i e ev e', Step e ev e' → E[i]? = some ev → C i ev → I i e → I (i + 1) e' ∧ S i)
    {e e' : Env} {evs : List Event} (hp : Path e evs e')
    (hev : ∀ k ev, evs[k]? = some ev → E[i + k]? = some ev ∧ C (i + k) ev) (h : I i e) :
    I (i + evs.length) e' ∧ ∀ k < evs.length, S (i + k) := by
  induction hp generalizing i with
  | nil e => exact ⟨h, fun k hk => absurd hk (Nat.not_lt_zero k)⟩
  | @cons e t e' ev evs hfirst _ ih =>
      have hshift (k : Nat) : i + 1 + k = i + (k + 1) := by omega
      obtain ⟨hat, hc⟩ := hev 0 ev rfl
      obtain ⟨ht, hsound⟩ := hstep i e ev t hfirst hat hc h
      obtain ⟨hend, hrest⟩ := ih (fun k ev' hk => by rw [hshift]; exact hev (k + 1) ev' hk) ht
      rw [List.length_cons]
      refine ⟨by rw [← hshift]; exact hend, fun k hk => ?_⟩
      cases k with
      | zero => exact hsound
      | succ k => rw [← hshift]; exact hrest k (by omega)

/-- At position `i` the open blocks have declared what their frames hold, and the global
frame is the one that the whole text leads to. -/
structure Env.Traces (E : List Event) (i : Nat) (e : Env) : Prop where
  length : (e.locals.length : Int) = blocksAt E i
  locals : StackTraced E i e.locals
  globals : Traced E E.length 0 e.globals

namespace Env.Traces

variable {e : Env} {x : Text}

/-- What a name stands for inside a method is the variable of its innermost visible
declaration. -/
theorem exists_innermost (hpos : ∀ r, 0 ≤ blocksAt E r) (h : e.Traces E i) (hi : 0 < blocksAt E i)
    {b : Binding} (hb : e.find? x = some b) :
    ∃ d, Innermost E i x d ∧ (b.isInitialized → Initialized E i x d) ∧
      (b.info.isGlobal → level E d = 0) := by
  have hlen := h.length
  rw [Env.find?, Env.frames, List.findSome?_append] at hb
  cases hloc : e.locals.findSome? fun f => f.find? x with
  | none =>
      have hglob : e.globals.find? x = some b := by simpa [hloc] using hb
      rcases h.globals.present x b hglob with ⟨_, d, hd, huniq, hgiven⟩ | ⟨_, _, habs, _⟩
      · have hin := innermost_of_global hpos hi hd huniq fun D d' hD hle =>
          h.locals.absent hloc hD (by omega)
        refine ⟨d, hin, fun hinit => ?_, fun _ => hd.2.1⟩
        exact (hgiven hinit).initialized_of_global hd.2.1 fun hzero => by omega
      · exact absurd habs (by decide)
  | some b' =>
      obtain rfl : b' = b := by simpa [hloc] using hb
      rcases h.locals.present hloc with
        ⟨hg, D, hD, hle, ⟨d, hd, huniq, hgiven⟩, habove⟩ | ⟨_, hinit, hcopied, hnone⟩
      · refine ⟨d, innermost_of_declaredIn hpos (fun hzero => by omega) hd huniq
          fun D' d' hlt hle' => habove D' d' hlt (by omega), fun hinit => ?_, fun hg' => ?_⟩
        · exact (hgiven hinit).initialized_of_local hd hD
        · simp [hg] at hg'
      · -- The copy stands for the global variable, which the method has assigned.
        obtain ⟨_, d, q, hl, hq, hin, hsame⟩ := hcopied
        have hd : DeclaredIn E E.length 0 x d := declaredIn_length hpos hin.1.1 hl
        refine ⟨d, innermost_of_global hpos hi hd (fun d' => h.globals.declaredIn_unique hd)
          fun D d' hD hle => ?_, fun _ => ?_, fun _ => hl⟩
        · exact hnone D d' hD (by omega)
        · exact Or.inr (Or.inr ⟨q, hq, hin, Or.inl hsame⟩)

theorem of_locals (h : e.Traces E i) {ev : Event} (hev : E[i]? = some ev) (hc : ev.change = 0)
    {fs : List Frame} (hfs : fs.length = e.locals.length) (hstack : StackTraced E (i + 1) fs) :
    ({ e with locals := fs } : Env).Traces E (i + 1) := by
  refine ⟨?_, hstack, h.globals⟩
  rw [blocksAt_succ hev, hc, ← h.length, hfs]
  exact (Int.add_zero _).symm

theorem declare (h : e.Traces E i) (hi : 0 < blocksAt E i) {hasValue : Bool}
    (hev : E[i]? = some (.declare x hasValue)) {ty : Ty} {isFinal : Bool} {e' : Env}
    (hstep : (e.declare x ty isFinal hasValue).result? = some e') : e'.Traces E (i + 1) := by
  have hlen := h.length
  have hnext : blocksAt E (i + 1) = blocksAt E i := by
    rw [blocksAt_succ hev]
    exact Int.add_zero _
  cases hl : e.locals with
  | nil =>
      rw [hl, List.length_nil] at hlen
      omega
  | cons f outer =>
      obtain ⟨hx, rfl⟩ := result?_declare_cons hl hstep
      have hstack := h.locals
      rw [hl] at hstack hlen
      rw [List.length_cons] at hlen
      have houter := hstack.2.succ hev (by omega) fun y _ => by omega
      refine h.of_locals hev rfl (by rw [hl]; rfl) ⟨?_, houter⟩
      exact hstack.1.declare hev (by omega) hx ty isFinal

theorem assign (hpos : ∀ r, 0 ≤ blocksAt E r) (h : e.Traces E i) (hi : 0 < blocksAt E i)
    (hev : E[i]? = some (.assign x)) {e' : Env} (hstep : (e.assign x).result? = some e') :
    e'.Traces E (i + 1) := by
  have hlen := h.length
  have hnext : blocksAt E (i + 1) = blocksAt E i := by
    rw [blocksAt_succ hev]
    exact Int.add_zero _
  have hne : e.locals ≠ [] := by
    intro hl
    rw [hl, List.length_nil] at hlen
    omega
  cases hb : e.find? x with
  | none => simp [assign_of_find?_eq_none hb] at hstep
  | some b =>
      cases hinit : b.isInitialized with
      | true =>
          rw [assign_of_isInitialized hb hinit] at hstep
          obtain rfl : e = e' := Option.some.inj hstep
          exact h.of_locals hev rfl rfl
            (h.locals.succ hev (by omega) fun _ => (Event.silent_assign x).elim)
      | false =>
          rw [assign_eq hne h.globals.allGlobal hb hinit] at hstep
          obtain ⟨d, hin, _, hglobal⟩ := h.exists_innermost hpos hi hb
          split at hstep
          · next hg =>
            -- No open block holds the name: what a method holds of a global variable is
            -- initialized.
            have hloc : (e.locals.findSome? fun f => f.find? x) = none := by
              cases hloc : e.locals.findSome? fun f => f.find? x with
              | none => rfl
              | some b' =>
                  obtain rfl : b' = b := by
                    simpa [Env.find?, Env.frames, List.findSome?_append, hloc] using hb
                  rcases h.locals.present hloc with ⟨hg', _⟩ | ⟨_, hinit', _⟩
                  · simp [hg'] at hg
                  · simp [hinit'] at hinit
            obtain ⟨fs, hfs, rfl⟩ := Option.map_eq_some_iff.mp (Outcome.result?_map _ _ ▸ hstep)
            obtain ⟨_, rfl⟩ := Outcome.result?_eq_some_iff.mp hfs
            exact h.of_locals hev rfl (length_state_onMethodFrame _ _)
              (h.locals.copy hev hi (by omega) hloc (hglobal hg) hin hg)
          · obtain rfl := Option.some.inj hstep
            refine h.of_locals hev rfl (length_assignFirst x e.locals)
              (h.locals.assignFirst hev (by omega) fun D d hD hle hd huniq habove => ?_)
            refine Or.inr (Or.inr ⟨i, by omega, hev, ?_, fun hl => ?_⟩)
            · exact innermost_of_declaredIn hpos (fun hzero => by omega) hd huniq
                fun D' d' hlt hle' => habove D' d' hlt (by omega)
            · have := hd.2.1
              omega

theorem push (h : e.Traces E i) (hev : E[i]? = some .openBlock) : e.push.Traces E (i + 1) := by
  have hlen := h.length
  have hnext : blocksAt E (i + 1) = blocksAt E i + 1 := blocksAt_succ hev
  refine ⟨?_, ⟨Traced.empty _ fun y d hd => ?_, ?_⟩, h.globals⟩
  · rw [Env.push, List.length_cons, hnext]
    omega
  · rcases (declaredIn_succ_iff hev (by omega)).mp hd with ⟨_, hl, hlt, hopen⟩ | ⟨_, hy, _⟩
    · have := hopen i hlt (Nat.le_refl i)
      omega
    · exact Event.silent_openBlock.elim hy
  · exact h.locals.succ hev (by omega) fun _ => Event.silent_openBlock.elim

theorem leave (h : e.Traces E i) (hi : 0 < blocksAt E i) (hev : E[i]? = some .close) :
    e.leave.Traces E (i + 1) := by
  have hlen := h.length
  have hnext : blocksAt E (i + 1) = blocksAt E i + -1 := blocksAt_succ hev
  cases hl : e.locals with
  | nil =>
      rw [hl, List.length_nil] at hlen
      omega
  | cons f outer =>
      have hstack := h.locals
      rw [hl] at hstack hlen
      rw [List.length_cons] at hlen
      refine ⟨?_, ?_, h.globals⟩
      · rw [Env.leave, hl, hnext]
        show (outer.length : Int) = _
        omega
      · rw [Env.leave, hl]
        show StackTraced E (i + 1) outer
        exact hstack.2.succ hev (by omega) fun _ => Event.silent_close.elim

theorem enter {ps : List Parameter} (hi : blocksAt E i = 0)
    (hev : E[i]? = some (.enter (ps.map (·.name)))) (hg : Traced E E.length 0 e.globals) :
    ({ e with locals := [Frame.ofParameters ps] } : Env).Traces E (i + 1) := by
  refine ⟨?_, ⟨Traced.ofParameters hev hi, trivial⟩, hg⟩
  rw [blocksAt_succ hev, hi]
  rfl

theorem step (hpos : ∀ r, 0 ≤ blocksAt E r) (h : e.Traces E i) (hi : 0 < blocksAt E i)
    {ev : Event} (hev : E[i]? = some ev) {e' : Env} (hstep : Step e ev e') :
    e'.Traces E (i + 1) ∧ SoundAt E i := by
  have hlen := h.length
  cases hstep with
  | use hb hinit =>
      constructor
      · have hnext : blocksAt E (i + 1) = blocksAt E i + 0 := blocksAt_succ hev
        exact h.of_locals hev rfl rfl
          (h.locals.succ hev (by omega) fun _ => (Event.silent_use _).elim)
      · intro y hy
        obtain ⟨rfl⟩ : _ = Event.use y := Option.some.inj (hev.symm.trans hy)
        obtain ⟨d, hin, hi', _⟩ := h.exists_innermost hpos hi hb
        exact ⟨d, hin, hi' hinit⟩
  | declare hd => exact ⟨h.declare hi hev hd, soundAt_of_ne hev (by simp)⟩
  | assign ha => exact ⟨h.assign hpos hi hev ha, soundAt_of_ne hev (by simp)⟩
  | enter ps hl =>
      rw [hl, List.length_nil] at hlen
      omega
  | openBlock => exact ⟨h.push hev, soundAt_of_ne hev (by simp)⟩
  | close => exact ⟨h.leave hi hev, soundAt_of_ne hev (by simp)⟩

end Env.Traces

/-! ## Outside every method -/

/-- Position `i` is outside every method, and the global frame holds what has been declared
before it. -/
structure Env.GlobalTraces (E : List Event) (i : Nat) (e : Env) : Prop where
  locals : e.locals = []
  outside : blocksAt E i = 0
  globals : Traced E i 0 e.globals

namespace Env.GlobalTraces

variable {e : Env} {x : Text}

theorem exists_innermost (hpos : ∀ r, 0 ≤ blocksAt E r) (h : e.GlobalTraces E i) {b : Binding}
    (hb : e.find? x = some b) :
    ∃ d, Innermost E i x d ∧ (b.isInitialized → Initialized E i x d) := by
  have hfind : e.globals.find? x = some b := by simpa [Env.find?, Env.frames, h.locals] using hb
  rcases h.globals.present x b hfind with ⟨_, d, hd, _, hgiven⟩ | ⟨_, _, habs, _⟩
  · refine ⟨d, h.globals.innermost hpos h.outside hd, fun hinit => ?_⟩
    exact (hgiven hinit).initialized_of_global hd.2.1 fun _ => Nat.le_refl i
  · exact absurd habs (by decide)

theorem assign (hpos : ∀ r, 0 ≤ blocksAt E r) (h : e.GlobalTraces E i)
    (hev : E[i]? = some (.assign x)) (hnext : blocksAt E (i + 1) = 0) {e' : Env}
    (hstep : (e.assign x).result? = some e') : e'.GlobalTraces E (i + 1) := by
  cases hb : e.find? x with
  | none => simp [assign_of_find?_eq_none hb] at hstep
  | some b =>
      cases hinit : b.isInitialized with
      | true =>
          rw [assign_of_isInitialized hb hinit] at hstep
          obtain rfl : e = e' := Option.some.inj hstep
          exact ⟨h.locals, hnext,
            h.globals.succ hev (by omega) fun _ => (Event.silent_assign x).elim⟩
      | false =>
          rw [assign_of_locals_eq_nil h.locals hb hinit] at hstep
          obtain rfl := Option.some.inj hstep
          refine ⟨h.locals, hnext, h.globals.assign hev (by omega) fun d hd _ => ?_⟩
          exact Or.inr (Or.inr ⟨i, by omega, hev, h.globals.innermost hpos h.outside hd,
            fun _ => h.outside⟩)

theorem step (hpos : ∀ r, 0 ≤ blocksAt E r) (h : e.GlobalTraces E i) {ev : Event}
    (hev : E[i]? = some ev) (hc : ev.change = 0) {e' : Env} (hstep : Step e ev e') :
    e'.GlobalTraces E (i + 1) ∧ SoundAt E i := by
  have hnext : blocksAt E (i + 1) = 0 := by
    rw [blocksAt_succ hev, h.outside, hc]
    rfl
  cases hstep with
  | use hb hinit =>
      refine ⟨⟨h.locals, hnext, h.globals.succ hev (by omega) fun _ => (Event.silent_use _).elim⟩,
        fun y hy => ?_⟩
      obtain ⟨rfl⟩ : _ = Event.use y := Option.some.inj (hev.symm.trans hy)
      obtain ⟨d, hin, hi⟩ := h.exists_innermost hpos hb
      exact ⟨d, hin, hi hinit⟩
  | declare hd =>
      obtain ⟨hx, rfl⟩ := result?_declare_nil h.locals hd
      exact ⟨⟨h.locals, hnext, h.globals.declare hev hnext hx _ _⟩, soundAt_of_ne hev (by simp)⟩
  | assign ha => exact ⟨h.assign hpos hev hnext ha, soundAt_of_ne hev (by simp)⟩
  | enter | openBlock | close => simp [Event.change] at hc

end Env.GlobalTraces
end SJava
