/-
Frames mark what they have copied.

The frame of a block has a variable for each declaration of the block so far.  In the frame
of a method's body there may be others: an assignment to a global variable that has no value
leaves a copy there (`Borrowed`).  The copy is marked as global and the variables of the
block are not, and along the events of a text the marks stay right one by one (`Recorded`).
-/
import SJava.Proofs.Paths

namespace SJava

/-! ## Marks -/

namespace Frame

/-- Whether the variable of that name is marked as global, if the frame has one. -/
def mark? (f : Frame) (x : Text) : Option Bool := (f.find? x).map (·.info.isGlobal)

variable {f : Frame} {x y : Text}

theorem mark?_eq_none : f.mark? x = none ↔ f.declares x = false := by
  simp [mark?, declares]

theorem mark?_of_find? {b : Binding} (h : f.find? x = some b) :
    f.mark? x = some b.info.isGlobal := by
  rw [mark?, h]
  rfl

theorem mark?_declare_self (h : f.declares x = false) (v : Variable) (i : Bool) :
    (f.declare x v i).state.mark? x = some v.isGlobal :=
  mark?_of_find? (find?_declare_self h v i)

theorem mark?_declare_of_ne (h : y ≠ x) (v : Variable) (i : Bool) :
    (f.declare x v i).state.mark? y = f.mark? y := by
  rw [mark?, find?_declare_of_ne h, mark?]

/-- A value is no matter of the marks. -/
theorem mark?_assign (f : Frame) (x y : Text) : (f.assign x).mark? y = f.mark? y := by
  by_cases h : y = x
  · subst h
    rw [mark?, find?_assign_self, Option.map_map]
    rfl
  · rw [mark?, find?_assign_of_ne h, mark?]

theorem mark?_ofParameters (ps : List Parameter) (x : Text) :
    (ofParameters ps).mark? x = if x ∈ ps.map (·.name) then some false else none := by
  cases hb : (ofParameters ps).find? x with
  | none =>
      rw [if_neg, mark?, hb, Option.map_none]
      intro hx
      obtain ⟨p, hp, rfl⟩ := List.mem_map.mp hx
      have hmem : p.binding ∈ (ofParameters ps).bindings :=
        List.mem_reverse.mpr (List.mem_map_of_mem hp)
      exact List.find?_eq_none.mp hb p.binding hmem (decide_eq_true rfl)
  | some b =>
      have hname := name_of_find? hb
      have hmem := List.mem_of_find?_eq_some hb
      rw [ofParameters, List.mem_reverse, List.mem_map] at hmem
      obtain ⟨p, hp, rfl⟩ := hmem
      rw [if_pos (List.mem_map.mpr ⟨p, hp, hname⟩), mark?_of_find? hb]
      rfl

end Frame

/-! ## What the marks say -/

section Definitions

variable (g : Frame) (E : List Event)

/-- The global variable `x` has no value, and before position `i` the same method has assigned
it, at a place where none of the open blocks declared the name. -/
def Borrowed (i : Nat) (x : Text) : Prop :=
  g.awaits x ∧ ∃ q, E[q]? = some (.assign x) ∧ SameMethod E q i ∧
    ∀ D d, 0 < D → ¬ DeclaredIn E q D x d

/-- The frame has a variable that is not marked for each declaration of the block with `D`
blocks around it.  The marked ones are those that have been borrowed, and they stand in the
frame of the method's body. -/
structure Recorded (i D : Nat) (f : Frame) : Prop where
  own : ∀ x, f.mark? x = some false ↔ ∃ d, DeclaredIn E i D x d
  borrowed : ∀ x, f.mark? x = some true ↔ D = 1 ∧ Borrowed g E i x

/-- The same for the frames of the open blocks. -/
def StackRecorded (i : Nat) : List Frame → Prop
  | [] => True
  | f :: outer => Recorded g E i (outer.length + 1) f ∧ StackRecorded i outer

/-- At position `i` there is a frame for each open block, with the right marks. -/
structure Env.Records (i : Nat) (e : Env) : Prop where
  length : (e.locals.length : Int) = blocksAt E i
  globals : e.globals = g
  stack : StackRecorded g E i e.locals

end Definitions

variable {g : Frame} {E : List Event} {i D : Nat} {x : Text}

theorem Frame.awaits_of_find? {f : Frame} {b : Binding} (h : f.find? x = some b) :
    f.awaits x = !b.isInitialized := by
  simp [awaits, h]

/-! ## One event later -/

theorem borrowed_succ_iff {ev : Event} (hev : E[i]? = some ev) (hi : 0 < blocksAt E i)
    (hnext : 0 < blocksAt E (i + 1)) :
    Borrowed g E (i + 1) x ↔ Borrowed g E i x ∨
      ev = .assign x ∧ g.awaits x ∧ ∀ D d, 0 < D → ¬ DeclaredIn E i D x d := by
  constructor
  · rintro ⟨hg, q, hq, ⟨hlt, hsame⟩, hnone⟩
    by_cases hqi : q = i
    · subst hqi
      exact Or.inr ⟨Option.some.inj (hev.symm.trans hq), hg, hnone⟩
    · exact Or.inl ⟨hg, q, hq, ⟨by omega, fun r hqr hr => hsame r hqr (by omega)⟩, hnone⟩
  · rintro (⟨hg, q, hq, ⟨hlt, hsame⟩, hnone⟩ | ⟨rfl, hg, hnone⟩)
    · refine ⟨hg, q, hq, ⟨by omega, fun r hqr hr => ?_⟩, hnone⟩
      by_cases hr' : r = i + 1
      · rw [hr']
        exact hnext
      · exact hsame r hqr (by omega)
    · refine ⟨hg, i, hev, ⟨by omega, fun r hir hr => ?_⟩, hnone⟩
      have hr' : r = i ∨ r = i + 1 := by omega
      rcases hr' with rfl | rfl
      · exact hi
      · exact hnext

theorem borrowed_succ_of_ne {ev : Event} (hev : E[i]? = some ev) (hi : 0 < blocksAt E i)
    (hnext : 0 < blocksAt E (i + 1)) (hne : ev ≠ .assign x) :
    Borrowed g E (i + 1) x ↔ Borrowed g E i x := by
  rw [borrowed_succ_iff hev hi hnext]
  exact or_iff_left fun h => hne h.1

theorem Recorded.succ {f : Frame} {ev : Event} (hev : E[i]? = some ev)
    (hD : D ≤ blocksAt E (i + 1)) (hx : ∀ x, ev.declares x → blocksAt E (i + 1) ≠ D)
    (hb : D = 1 → ∀ x, Borrowed g E (i + 1) x ↔ Borrowed g E i x) (h : Recorded g E i D f) :
    Recorded g E (i + 1) D f where
  own y := by
    rw [h.own]
    exact exists_congr fun d => (declaredIn_succ_of_ne hev hD (hx y)).symm
  borrowed y := by
    rw [h.borrowed]
    exact and_congr_right fun hone => (hb hone y).symm

theorem StackRecorded.succ {fs : List Frame} {ev : Event} (hev : E[i]? = some ev)
    (hD : fs.length ≤ blocksAt E (i + 1))
    (hx : ∀ x, ev.declares x → (fs.length : Int) < blocksAt E (i + 1))
    (hb : ∀ x, Borrowed g E (i + 1) x ↔ Borrowed g E i x) (h : StackRecorded g E i fs) :
    StackRecorded g E (i + 1) fs := by
  induction fs with
  | nil => trivial
  | cons f outer ih =>
      rw [List.length_cons] at hD hx
      refine ⟨h.1.succ hev (by omega) (fun y hy => ?_) (fun _ => hb),
        ih (by omega) (fun y hy => ?_) h.2⟩
      · have := hx y hy
        omega
      · have := hx y hy
        omega

/-! ## Operations on frames -/

namespace Recorded

theorem declare {f : Frame} {hasValue : Bool} (hev : E[i]? = some (.declare x hasValue))
    (hi : 0 < blocksAt E i) (hD : blocksAt E (i + 1) = D) (h : Recorded g E i D f)
    (hx : f.declares x = false) (ty : Ty) (isFinal : Bool) :
    Recorded g E (i + 1) D (f.declare x ⟨ty, isFinal, false⟩ hasValue).state := by
  have hle : D ≤ blocksAt E (i + 1) := by omega
  have hnext : blocksAt E (i + 1) = blocksAt E i + 0 := blocksAt_succ hev
  have hkeep (y : Text) : Borrowed g E (i + 1) y ↔ Borrowed g E i y :=
    borrowed_succ_of_ne hev hi (by omega) (by simp)
  constructor
  · intro y
    by_cases hy : y = x
    · subst hy
      rw [Frame.mark?_declare_self hx]
      refine iff_of_true rfl ⟨i, ?_⟩
      exact (declaredIn_succ_iff hev hle).mpr (Or.inr ⟨rfl, beq_self_eq_true y, hD⟩)
    · rw [Frame.mark?_declare_of_ne hy, h.own]
      refine exists_congr fun d => (declaredIn_succ_of_ne hev hle fun hdecl => ?_).symm
      exact absurd (beq_iff_eq.mp hdecl).symm hy
  · intro y
    rw [hkeep, ← h.borrowed]
    by_cases hy : y = x
    · subst hy
      rw [Frame.mark?_declare_self hx, Frame.mark?_eq_none.mpr hx]
      simp
    · rw [Frame.mark?_declare_of_ne hy]

/-- The copy that an assignment leaves in the frame of the method's body. -/
theorem copy {f : Frame} (hev : E[i]? = some (.assign x)) (hi : 0 < blocksAt E i)
    (hg : g.awaits x) (hnone : ∀ D d, 0 < D → ¬ DeclaredIn E i D x d) (h : Recorded g E i 1 f)
    (hx : f.declares x = false) {v : Variable} (hv : v.isGlobal = true) :
    Recorded g E (i + 1) 1 (f.declare x v true).state := by
  have hnext : blocksAt E (i + 1) = blocksAt E i + 0 := blocksAt_succ hev
  have hle : ((1 : Nat) : Int) ≤ blocksAt E (i + 1) := by omega
  have hiff {y : Text} {d : Nat} : DeclaredIn E (i + 1) 1 y d ↔ DeclaredIn E i 1 y d :=
    declaredIn_succ_of_ne hev hle (Event.silent_assign x).elim
  constructor
  · intro y
    simp only [hiff]
    by_cases hy : y = x
    · subst hy
      rw [Frame.mark?_declare_self hx, hv]
      refine iff_of_false (by simp) ?_
      rintro ⟨d, hd⟩
      exact hnone 1 d (by omega) hd
    · rw [Frame.mark?_declare_of_ne hy, h.own]
  · intro y
    rw [borrowed_succ_iff hev hi (by omega)]
    by_cases hy : y = x
    · subst hy
      rw [Frame.mark?_declare_self hx, hv]
      exact iff_of_true rfl ⟨rfl, Or.inr ⟨rfl, hg, hnone⟩⟩
    · have hne : Event.assign x ≠ .assign y := fun heq => hy (Event.assign.inj heq).symm
      rw [Frame.mark?_declare_of_ne hy, h.borrowed]
      simp [hne]

theorem empty (parent : Option Nat) (hown : ∀ x d, ¬ DeclaredIn E i D x d) (hD : D ≠ 1) :
    Recorded g E i D (Frame.empty parent) where
  own x := iff_of_false (by simp [Frame.mark?]) fun ⟨d, hd⟩ => hown x d hd
  borrowed x := iff_of_false (by simp [Frame.mark?]) fun h => hD h.1

/-- The frame that a method begins with.  Nothing has been borrowed yet, because the header
stands outside every method. -/
theorem ofParameters {ps : List Parameter} (hev : E[i]? = some (.enter (ps.map (·.name))))
    (hi : blocksAt E i = 0) : Recorded g E (i + 1) 1 (Frame.ofParameters ps) := by
  have hnext : blocksAt E (i + 1) = blocksAt E i + 1 := blocksAt_succ hev
  constructor
  · intro y
    rw [Frame.mark?_ofParameters]
    constructor
    · intro h
      split at h
      · next hy =>
        refine ⟨i, (declaredIn_succ_iff hev (by omega)).mpr (Or.inr ⟨rfl, ?_, by omega⟩)⟩
        exact List.contains_iff_mem.mpr hy
      · simp at h
    · rintro ⟨d, hd⟩
      rcases (declaredIn_succ_iff hev (by omega)).mp hd with ⟨_, hl, hlt, hopen⟩ | ⟨_, hy, _⟩
      · have := hopen i hlt (Nat.le_refl i)
        omega
      · rw [if_pos (List.contains_iff_mem.mp hy)]
  · intro y
    refine iff_of_false ?_ ?_
    · rw [Frame.mark?_ofParameters]
      split <;> simp
    · rintro ⟨_, _, q, _, ⟨hlt, hsame⟩, _⟩
      have := hsame i (by omega) (by omega)
      omega

theorem assign {f : Frame} (h : Recorded g E i D f) (x : Text) : Recorded g E i D (f.assign x) where
  own y := by rw [Frame.mark?_assign, h.own]
  borrowed y := by rw [Frame.mark?_assign, h.borrowed]

end Recorded

/-! ## Operations on stacks of frames -/

namespace StackRecorded

theorem assignFirst {fs : List Frame} (h : StackRecorded g E i fs) (x : Text) :
    StackRecorded g E i (Env.assignFirst x fs) := by
  induction fs with
  | nil => trivial
  | cons f outer ih =>
      rw [Env.assignFirst]
      split
      · exact ⟨h.1.assign x, h.2⟩
      · refine ⟨?_, ih h.2⟩
        rw [Env.length_assignFirst]
        exact h.1

/-- What has been borrowed cannot be copied again. -/
theorem failure_onMethodFrame {fs : List Frame} (hne : fs ≠ []) (h : StackRecorded g E i fs)
    (hx : Borrowed g E i x) (v : Variable) :
    (Env.onMethodFrame (fun f => f.declare x v true) fs).failure ≠ none := by
  induction fs with
  | nil => exact absurd rfl hne
  | cons f outer ih =>
      cases outer with
      | nil =>
          have hmark : f.mark? x = some true := (h.1.borrowed x).mpr ⟨rfl, hx⟩
          have hd : f.declares x = true := by
            rw [← Bool.not_eq_false, ← Frame.mark?_eq_none, hmark]
            simp
          simp [Env.onMethodFrame, Frame.declare_of_declares hd, Outcome.fail, Outcome.map]
      | cons f' outer => exact ih (List.cons_ne_nil _ _) h.2

theorem copy {fs : List Frame} (hev : E[i]? = some (.assign x)) (hi : 0 < blocksAt E i)
    (hD : fs.length ≤ blocksAt E (i + 1)) (hg : g.awaits x)
    (hnone : ∀ D d, 0 < D → ¬ DeclaredIn E i D x d) (h : StackRecorded g E i fs) {v : Variable}
    (hv : v.isGlobal = true)
    (hok : (Env.onMethodFrame (fun f => f.declare x v true) fs).failure = none) :
    StackRecorded g E (i + 1) (Env.onMethodFrame (fun f => f.declare x v true) fs).state := by
  induction fs with
  | nil => trivial
  | cons f outer ih =>
      cases outer with
      | nil =>
          have hx : f.declares x = false := by
            cases hd : f.declares x with
            | false => rfl
            | true =>
                simp [Env.onMethodFrame, Frame.declare_of_declares hd, Outcome.fail,
                  Outcome.map] at hok
          exact ⟨h.1.copy hev hi hg hnone hx hv, trivial⟩
      | cons f' outer =>
          rw [List.length_cons] at hD
          refine ⟨?_, ih (by omega) h.2 hok⟩
          rw [Env.length_state_onMethodFrame]
          refine h.1.succ hev hD (fun _ => (Event.silent_assign x).elim) fun hone => ?_
          rw [List.length_cons] at hone
          omega

theorem absent {fs : List Frame} (h : StackRecorded g E i fs)
    (hx : (fs.findSome? fun f => f.find? x) = none) {D d : Nat} (hD : 0 < D)
    (hle : D ≤ fs.length) : ¬ DeclaredIn E i D x d := by
  induction fs with
  | nil =>
      rw [List.length_nil] at hle
      omega
  | cons f outer ih =>
      rw [List.findSome?_cons] at hx
      cases hf : f.find? x with
      | some b => simp [hf] at hx
      | none =>
          simp only [hf] at hx
          rw [List.length_cons] at hle
          by_cases heq : D = outer.length + 1
          · intro hd
            have hmark := (h.1.own x).mpr ⟨d, heq ▸ hd⟩
            simp [Frame.mark?, hf] at hmark
          · exact ih h.2 hx (by omega)

theorem present {fs : List Frame} (h : StackRecorded g E i fs) {b : Binding}
    (hb : (fs.findSome? fun f => f.find? x) = some b) :
    (b.info.isGlobal = false ∧ ∃ D d, 0 < D ∧ DeclaredIn E i D x d) ∨ Borrowed g E i x := by
  induction fs with
  | nil => simp at hb
  | cons f outer ih =>
      rw [List.findSome?_cons] at hb
      cases hf : f.find? x with
      | none =>
          simp only [hf] at hb
          exact ih h.2 hb
      | some b' =>
          simp only [hf] at hb
          obtain rfl := Option.some.inj hb
          have hmark := Frame.mark?_of_find? hf
          cases hglobal : b'.info.isGlobal with
          | false =>
              obtain ⟨d, hd⟩ := (h.1.own x).mp (hmark.trans (congrArg some hglobal))
              exact Or.inl ⟨rfl, _, d, by omega, hd⟩
          | true => exact Or.inr ((h.1.borrowed x).mp (hmark.trans (congrArg some hglobal))).2

end StackRecorded

/-! ## Steps inside a method -/

namespace Env.Records

variable {e : Env}

theorem of_locals (h : e.Records g E i) {ev : Event} (hev : E[i]? = some ev) (hc : ev.change = 0)
    {fs : List Frame} (hfs : fs.length = e.locals.length) (hstack : StackRecorded g E (i + 1) fs) :
    ({ e with locals := fs } : Env).Records g E (i + 1) := by
  refine ⟨?_, h.globals, hstack⟩
  rw [blocksAt_succ hev, hc, ← h.length, hfs]
  exact (Int.add_zero _).symm

/-- What a name stands for belongs to an open block, or it has been borrowed, or it is a
global variable and no open block declares the name. -/
theorem find?_cases (h : e.Records g E i) {b : Binding} (hb : e.find? x = some b) :
    (b.info.isGlobal = false ∧ ∃ D d, 0 < D ∧ DeclaredIn E i D x d) ∨ Borrowed g E i x ∨
      g.find? x = some b ∧ ∀ D d, 0 < D → ¬ DeclaredIn E i D x d := by
  have hlen := h.length
  rw [Env.find?, Env.frames, List.findSome?_append] at hb
  cases hloc : e.locals.findSome? fun f => f.find? x with
  | some b' =>
      obtain rfl : b' = b := by simpa [hloc] using hb
      rcases h.stack.present hloc with hown | hborrowed
      · exact Or.inl hown
      · exact Or.inr (Or.inl hborrowed)
  | none =>
      refine Or.inr (Or.inr ⟨by simpa [hloc, h.globals] using hb, fun D d hD hd => ?_⟩)
      have hle := hd.2.2.2 i hd.2.2.1 (Nat.le_refl i)
      rw [hd.2.1] at hle
      exact h.stack.absent hloc hD (by omega) hd

theorem declare (h : e.Records g E i) (hi : 0 < blocksAt E i) {hasValue : Bool}
    (hev : E[i]? = some (.declare x hasValue)) {ty : Ty} {isFinal : Bool} {e' : Env}
    (hstep : (e.declare x ty isFinal hasValue).result? = some e') : e'.Records g E (i + 1) := by
  have hlen := h.length
  have hnext : blocksAt E (i + 1) = blocksAt E i + 0 := blocksAt_succ hev
  cases hl : e.locals with
  | nil =>
      rw [hl, List.length_nil] at hlen
      omega
  | cons f outer =>
      obtain ⟨hx, rfl⟩ := result?_declare_cons hl hstep
      have hstack := h.stack
      rw [hl] at hstack hlen
      rw [List.length_cons] at hlen
      refine h.of_locals hev rfl (by rw [hl]; rfl)
        ⟨hstack.1.declare hev hi (by omega) hx ty isFinal, ?_⟩
      exact hstack.2.succ hev (by omega) (fun y _ => by omega)
        fun y => borrowed_succ_of_ne hev hi (by omega) (by simp)

/-- An assignment borrows the global variable if it has no value and no open block declares
the name.  Then the name stands for the global variable, and a copy is made. -/
theorem assign (hg : g.AllGlobal) (h : e.Records g E i) (hi : 0 < blocksAt E i)
    (hev : E[i]? = some (.assign x)) {e' : Env} (hstep : (e.assign x).result? = some e') :
    e'.Records g E (i + 1) := by
  have hlen := h.length
  have hnext : blocksAt E (i + 1) = blocksAt E i + 0 := blocksAt_succ hev
  have hne : e.locals ≠ [] := by
    intro hl
    rw [hl, List.length_nil] at hlen
    omega
  -- Where nothing is copied, nothing must have been borrowed by this event.
  have hkeep {fs : List Frame} (hfs : fs.length = e.locals.length) (hstack : StackRecorded g E i fs)
      (hx : g.awaits x → (∀ D d, 0 < D → ¬ DeclaredIn E i D x d) → Borrowed g E i x) :
      ({ e with locals := fs } : Env).Records g E (i + 1) := by
    refine h.of_locals hev rfl hfs
      (hstack.succ hev (by omega) (fun _ => (Event.silent_assign x).elim) fun y => ?_)
    rw [borrowed_succ_iff hev hi (by omega)]
    refine or_iff_left_of_imp ?_
    rintro ⟨hy, hawaits, hnone⟩
    obtain rfl := Event.assign.inj hy
    exact hx hawaits hnone
  cases hb : e.find? x with
  | none => simp [assign_of_find?_eq_none hb] at hstep
  | some b =>
      have hcases := h.find?_cases hb
      cases hinit : b.isInitialized with
      | true =>
          rw [assign_of_isInitialized hb hinit] at hstep
          obtain rfl : e = e' := Option.some.inj hstep
          refine hkeep rfl h.stack fun hawaits hnone => ?_
          rcases hcases with ⟨_, D, d, hD, hd⟩ | hborrowed | ⟨hfind, _⟩
          · exact absurd hd (hnone D d hD)
          · exact hborrowed
          · simp [Frame.awaits_of_find? hfind, hinit] at hawaits
      | false =>
          rw [assign_eq hne (h.globals.symm ▸ hg) hb hinit] at hstep
          split at hstep
          · next hglobal =>
            obtain ⟨fs, hfs, rfl⟩ := Option.map_eq_some_iff.mp (Outcome.result?_map _ _ ▸ hstep)
            obtain ⟨hok, rfl⟩ := Outcome.result?_eq_some_iff.mp hfs
            refine h.of_locals hev rfl (length_state_onMethodFrame _ _) ?_
            rcases hcases with ⟨hlocal, _⟩ | hborrowed | ⟨hfind, hnone⟩
            · simp [hlocal] at hglobal
            · exact absurd hok (h.stack.failure_onMethodFrame hne hborrowed b.info)
            · have hawaits : g.awaits x = true := by simp [Frame.awaits_of_find? hfind, hinit]
              exact h.stack.copy hev hi (by omega) hawaits hnone hglobal hok
          · next hlocal =>
            obtain rfl := Option.some.inj hstep
            refine hkeep (length_assignFirst x e.locals) (h.stack.assignFirst x) fun _ hnone => ?_
            rcases hcases with ⟨_, D, d, hD, hd⟩ | hborrowed | ⟨hfind, _⟩
            · exact absurd hd (hnone D d hD)
            · exact hborrowed
            · exact absurd (hg x b hfind) hlocal

theorem push (h : e.Records g E i) (hi : 0 < blocksAt E i) (hev : E[i]? = some .openBlock) :
    e.push.Records g E (i + 1) := by
  have hlen := h.length
  have hnext : blocksAt E (i + 1) = blocksAt E i + 1 := blocksAt_succ hev
  refine ⟨?_, h.globals, Recorded.empty _ (fun y d hd => ?_) (by omega), ?_⟩
  · rw [Env.push, List.length_cons, hnext]
    omega
  · rcases (declaredIn_succ_iff hev (by omega)).mp hd with ⟨_, hl, hlt, hopen⟩ | ⟨_, hy, _⟩
    · have := hopen i hlt (Nat.le_refl i)
      omega
    · exact Event.silent_openBlock.elim hy
  · exact h.stack.succ hev (by omega) (fun _ => Event.silent_openBlock.elim)
      fun y => borrowed_succ_of_ne hev hi (by omega) (by simp)

theorem leave (h : e.Records g E i) (hi : 0 < blocksAt E i) (hev : E[i]? = some .close) :
    e.leave.Records g E (i + 1) := by
  have hlen := h.length
  have hnext : blocksAt E (i + 1) = blocksAt E i + -1 := blocksAt_succ hev
  cases hl : e.locals with
  | nil =>
      rw [hl, List.length_nil] at hlen
      omega
  | cons f outer =>
      have hstack := h.stack
      rw [hl] at hstack hlen
      rw [List.length_cons] at hlen
      have hleave : e.leave = { e with locals := outer } := by rw [Env.leave, hl]; rfl
      rw [hleave]
      refine ⟨by show (outer.length : Int) = _; omega, h.globals, ?_⟩
      show StackRecorded g E (i + 1) outer
      by_cases houter : outer = []
      · rw [houter]
        trivial
      · have hpos := List.length_pos_iff.mpr houter
        exact hstack.2.succ hev (by omega) (fun _ => Event.silent_close.elim)
          fun y => borrowed_succ_of_ne hev hi (by omega) (by simp)

theorem step (hg : g.AllGlobal) (h : e.Records g E i) (hi : 0 < blocksAt E i) {ev : Event}
    (hev : E[i]? = some ev) {e' : Env} (hstep : Step e ev e') : e'.Records g E (i + 1) := by
  have hlen := h.length
  cases hstep with
  | use hb hinit =>
      have hnext : blocksAt E (i + 1) = blocksAt E i + 0 := blocksAt_succ hev
      exact h.of_locals hev rfl rfl (h.stack.succ hev (by omega)
        (fun _ => (Event.silent_use _).elim)
        fun y => borrowed_succ_of_ne hev hi (by omega) (by simp))
  | declare hd => exact h.declare hi hev hd
  | assign ha => exact h.assign hg hi hev ha
  | enter ps hl =>
      rw [hl, List.length_nil] at hlen
      omega
  | openBlock => exact h.push hi hev
  | close => exact h.leave hi hev

/-- A method is entered from outside every method. -/
theorem enter {ps : List Parameter} (hi : blocksAt E i = 0)
    (hev : E[i]? = some (.enter (ps.map (·.name)))) (hg : e.globals = g) :
    ({ e with locals := [Frame.ofParameters ps] } : Env).Records g E (i + 1) := by
  refine ⟨?_, hg, Recorded.ofParameters hev hi, trivial⟩
  rw [blocksAt_succ hev, hi]
  rfl

end Env.Records

end SJava
