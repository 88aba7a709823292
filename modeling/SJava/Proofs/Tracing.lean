/-
Frames hold what the text declares.

The frame of a block at some position holds exactly the declarations of that block before
the position (`Traced`), and a variable that it marks as initialized has been given a value
in the text.  One kind of binding has no declaration of its own in its block: a global
variable that a method assigns is copied into the frame of the method, and the assignment
is what it stands for (`Copied`).  Each operation on environments keeps this, in step with
the event of the text that it carries out.
-/
import SJava.Proofs.Occurrence

namespace SJava

section Definitions

variable (E : List Event)

/-- The declaration of `x` at `d` belongs to the block with `D` blocks around it that is
open at position `i`. -/
def DeclaredIn (i D : Nat) (x : Text) (d : Nat) : Prop :=
  Declares E d x ∧ level E d = D ∧ OpenTo E d i

/-- Before position `i` the variable `x` that is declared at `d` has been given a value by
its declaration or by an assignment. -/
def Given (i : Nat) (x : Text) (d : Nat) : Prop :=
  (∃ parameters, E[d]? = some (.enter parameters)) ∨ E[d]? = some (.declare x true) ∨
    ∃ q, q < i ∧ E[q]? = some (.assign x) ∧ Innermost E q x d ∧ (level E d = 0 → blocksAt E q = 0)

/-- The block has one declaration of `x`, and it has been given a value if the frame says
so. -/
def Owned (i D : Nat) (x : Text) (isInitialized : Bool) : Prop :=
  ∃ d, DeclaredIn E i D x d ∧ (∀ d', DeclaredIn E i D x d' → d' = d) ∧
    (isInitialized → Given E i x d)

/-- The body of the method does not declare `x`, and an assignment in the method has meant
the global variable. -/
def Copied (i : Nat) (x : Text) : Prop :=
  (∀ d, ¬ DeclaredIn E i 1 x d) ∧
    ∃ d q, level E d = 0 ∧ E[q]? = some (.assign x) ∧ Innermost E q x d ∧ SameMethod E q i

/-- The frame holds what the block with `D` blocks around it has declared before position
`i`, and for the body of a method also the global variables that the method has assigned. -/
structure Traced (i D : Nat) (f : Frame) : Prop where
  absent : ∀ x, f.find? x = none → ∀ d, ¬ DeclaredIn E i D x d
  present : ∀ x b, f.find? x = some b →
    b.info.isGlobal = decide (D = 0) ∧ Owned E i D x b.isInitialized ∨
      b.info.isGlobal = true ∧ b.isInitialized = true ∧ D = 1 ∧ Copied E i x

/-- The frames hold what the open blocks have declared. -/
def StackTraced (i : Nat) : List Frame → Prop
  | [] => True
  | f :: outer => Traced E i (outer.length + 1) f ∧ StackTraced i outer

end Definitions

variable {E : List Event} {i D : Nat} {x : Text}

/-! ## One event later -/

theorem declaredIn_succ_iff {ev : Event} (hev : E[i]? = some ev) (hD : D ≤ blocksAt E (i + 1))
    {d : Nat} :
    DeclaredIn E (i + 1) D x d ↔
      DeclaredIn E i D x d ∨ d = i ∧ ev.declares x ∧ blocksAt E (i + 1) = D := by
  constructor
  · rintro ⟨⟨ev', hev', hx⟩, hl, hlt, hopen⟩
    by_cases hd : d = i
    · subst hd
      obtain rfl : ev = ev' := Option.some.inj (hev.symm.trans hev')
      exact Or.inr ⟨rfl, hx, hl⟩
    · exact Or.inl ⟨⟨ev', hev', hx⟩, hl, by omega, fun r hr hri => hopen r hr (by omega)⟩
  · rintro (⟨hx, hl, hlt, hopen⟩ | ⟨rfl, hx, hl⟩)
    · refine ⟨hx, hl, by omega, fun r hr hri => ?_⟩
      by_cases hr' : r = i + 1
      · rw [hr', hl]
        exact hD
      · exact hopen r hr (by omega)
    · refine ⟨⟨ev, hev, hx⟩, hl, by omega, fun r hr hri => ?_⟩
      obtain rfl : r = d + 1 := by omega
      exact Int.le_refl _

/-- An event that does not declare `x` in the block leaves the declarations of `x` there. -/
theorem declaredIn_succ_of_ne {ev : Event} (hev : E[i]? = some ev) (hD : D ≤ blocksAt E (i + 1))
    (hx : ev.declares x → blocksAt E (i + 1) ≠ D) {d : Nat} :
    DeclaredIn E (i + 1) D x d ↔ DeclaredIn E i D x d := by
  rw [declaredIn_succ_iff hev hD]
  exact or_iff_left fun h => hx h.2.1 h.2.2

theorem Given.succ {d : Nat} (h : Given E i x d) : Given E (i + 1) x d := by
  rcases h with h | h | ⟨q, hq, h⟩
  · exact Or.inl h
  · exact Or.inr (Or.inl h)
  · exact Or.inr (Or.inr ⟨q, by omega, h⟩)

theorem Owned.of_iff {j : Nat} {b : Bool} (h : Owned E i D x b)
    (hiff : ∀ d, DeclaredIn E j D x d ↔ DeclaredIn E i D x d)
    (hg : ∀ d, Given E i x d → Given E j x d) : Owned E j D x b := by
  obtain ⟨d, hd, huniq, hgiven⟩ := h
  exact ⟨d, (hiff d).mpr hd, fun d' h' => huniq d' ((hiff d').mp h'), fun hb => hg d (hgiven hb)⟩

theorem Copied.succ {ev : Event} (hev : E[i]? = some ev) (hpos : 0 < blocksAt E (i + 1))
    (hx : ev.declares x → blocksAt E (i + 1) ≠ 1) (h : Copied E i x) : Copied E (i + 1) x := by
  obtain ⟨hnone, d, q, hl, hq, hin, hlt, hsame⟩ := h
  have hD : ((1 : Nat) : Int) ≤ blocksAt E (i + 1) := by omega
  refine ⟨fun d' hd' => hnone d' ?_, d, q, hl, hq, hin, by omega, fun r hqr hr => ?_⟩
  · exact (declaredIn_succ_of_ne hev hD hx).mp hd'
  · by_cases hr' : r = i + 1
    · rw [hr']
      exact hpos
    · exact hsame r hqr (by omega)

/-- What a frame holds under one name stays right after an event that does not declare the
name in its block. -/
theorem Traced.present_succ {f : Frame} {ev : Event} (hev : E[i]? = some ev)
    (hD : D ≤ blocksAt E (i + 1)) (hx : ev.declares x → blocksAt E (i + 1) ≠ D) (h : Traced E i D f)
    {b : Binding} (hb : f.find? x = some b) :
    b.info.isGlobal = decide (D = 0) ∧ Owned E (i + 1) D x b.isInitialized ∨
      b.info.isGlobal = true ∧ b.isInitialized = true ∧ D = 1 ∧ Copied E (i + 1) x := by
  rcases h.present x b hb with ⟨hg, ho⟩ | ⟨hg, hi, rfl, hc⟩
  · exact Or.inl ⟨hg, ho.of_iff (fun d => declaredIn_succ_of_ne hev hD hx) fun d => Given.succ⟩
  · exact Or.inr ⟨hg, hi, rfl, hc.succ hev (by omega) hx⟩

theorem Traced.succ {f : Frame} {ev : Event} (hev : E[i]? = some ev) (hD : D ≤ blocksAt E (i + 1))
    (hx : ∀ x, ev.declares x → blocksAt E (i + 1) ≠ D) (h : Traced E i D f) :
    Traced E (i + 1) D f where
  absent x hnone d hd := h.absent x hnone d ((declaredIn_succ_of_ne hev hD (hx x)).mp hd)
  present x _ hb := h.present_succ hev hD (hx x) hb

theorem StackTraced.succ {fs : List Frame} {ev : Event} (hev : E[i]? = some ev)
    (hD : fs.length ≤ blocksAt E (i + 1))
    (hx : ∀ x, ev.declares x → (fs.length : Int) < blocksAt E (i + 1)) (h : StackTraced E i fs) :
    StackTraced E (i + 1) fs := by
  induction fs with
  | nil => trivial
  | cons f outer ih =>
      rw [List.length_cons] at hD hx
      refine ⟨h.1.succ hev (by omega) fun y hy => ?_, ih (by omega) (fun y hy => ?_) h.2⟩
      · have := hx y hy
        omega
      · have := hx y hy
        omega

/-! ## Operations on frames -/

namespace Traced

theorem empty (parent : Option Nat) (h : ∀ x d, ¬ DeclaredIn E i D x d) :
    Traced E i D (Frame.empty parent) where
  absent x _ d := h x d
  present x _ hb := by simp at hb

theorem declare {f : Frame} {hasValue : Bool} (hev : E[i]? = some (.declare x hasValue))
    (hD : blocksAt E (i + 1) = D) (h : Traced E i D f) (hx : f.declares x = false) (ty : Ty)
    (isFinal : Bool) :
    Traced E (i + 1) D (f.declare x ⟨ty, isFinal, decide (D = 0)⟩ hasValue).state := by
  have hle : D ≤ blocksAt E (i + 1) := by omega
  have hother {y : Text} (hy : y ≠ x) :
      (Event.declare x hasValue).declares y → blocksAt E (i + 1) ≠ D := by
    intro hdecl
    exact absurd (beq_iff_eq.mp hdecl).symm hy
  constructor
  · intro y hnone d hd
    by_cases hy : y = x
    · subst hy
      rw [Frame.find?_declare_self hx] at hnone
      simp at hnone
    · rw [Frame.find?_declare_of_ne hy] at hnone
      exact h.absent y hnone d ((declaredIn_succ_of_ne hev hle (hother hy)).mp hd)
  · intro y b hb
    by_cases hy : y = x
    · subst hy
      rw [Frame.find?_declare_self hx] at hb
      obtain rfl := Option.some.inj hb
      have hnone : f.find? y = none := by simpa [Frame.declares] using hx
      refine Or.inl ⟨rfl, i, ?_, fun d' hd' => ?_, fun hi => ?_⟩
      · exact (declaredIn_succ_iff hev hle).mpr (Or.inr ⟨rfl, beq_self_eq_true y, hD⟩)
      · rcases (declaredIn_succ_iff hev hle).mp hd' with hd' | ⟨hd', _⟩
        · exact absurd hd' (h.absent y hnone d')
        · exact hd'
      · exact Or.inr (Or.inl (by rw [hev, show hasValue = true from hi]))
    · rw [Frame.find?_declare_of_ne hy] at hb
      exact h.present_succ hev hle (hother hy) hb

theorem assign {f : Frame} (hev : E[i]? = some (.assign x)) (hD : D ≤ blocksAt E (i + 1))
    (h : Traced E i D f)
    (hx : ∀ d, DeclaredIn E i D x d → (∀ d', DeclaredIn E i D x d' → d' = d) →
      Given E (i + 1) x d) :
    Traced E (i + 1) D (f.assign x) := by
  have hiff {y : Text} {d : Nat} : DeclaredIn E (i + 1) D y d ↔ DeclaredIn E i D y d :=
    declaredIn_succ_of_ne hev hD (Event.silent_assign x).elim
  constructor
  · intro y hnone d hd
    refine h.absent y ?_ d (hiff.mp hd)
    by_cases hy : y = x
    · subst hy
      rw [Frame.find?_assign_self] at hnone
      exact Option.map_eq_none_iff.mp hnone
    · rwa [Frame.find?_assign_of_ne hy] at hnone
  · intro y b hb
    by_cases hy : y = x
    · subst hy
      rw [Frame.find?_assign_self] at hb
      obtain ⟨b', hb', rfl⟩ := Option.map_eq_some_iff.mp hb
      rcases h.present y b' hb' with ⟨hg, d, hd, huniq, _⟩ | ⟨hg, _, rfl, hc⟩
      · exact Or.inl ⟨hg, d, hiff.mpr hd, fun d' hd' => huniq d' (hiff.mp hd'),
          fun _ => hx d hd huniq⟩
      · exact Or.inr ⟨hg, rfl, rfl, hc.succ hev (by omega) (Event.silent_assign y).elim⟩
    · rw [Frame.find?_assign_of_ne hy] at hb
      exact h.present_succ hev hD (Event.silent_assign x).elim hb

theorem copy {f : Frame} (hev : E[i]? = some (.assign x)) (hpos : 0 < blocksAt E i)
    (h : Traced E i 1 f) (hnone : f.find? x = none) {d : Nat} (hl : level E d = 0)
    (hd : Innermost E i x d) {info : Variable} (hinfo : info.isGlobal = true) :
    Traced E (i + 1) 1 (f.declare x info true).state := by
  have hdepth : blocksAt E (i + 1) = blocksAt E i := by
    rw [blocksAt_succ hev]
    exact Int.add_zero _
  have hD : ((1 : Nat) : Int) ≤ blocksAt E (i + 1) := by omega
  have hiff {y : Text} {d : Nat} : DeclaredIn E (i + 1) 1 y d ↔ DeclaredIn E i 1 y d :=
    declaredIn_succ_of_ne hev hD (Event.silent_assign x).elim
  have hx : f.declares x = false := by simp [Frame.declares, hnone]
  constructor
  · intro y hn d' hd'
    by_cases hy : y = x
    · subst hy
      exact h.absent y hnone d' (hiff.mp hd')
    · rw [Frame.find?_declare_of_ne hy] at hn
      exact h.absent y hn d' (hiff.mp hd')
  · intro y b hb
    by_cases hy : y = x
    · subst hy
      rw [Frame.find?_declare_self hx] at hb
      obtain rfl := Option.some.inj hb
      refine Or.inr ⟨hinfo, rfl, rfl, fun d' hd' => h.absent y hnone d' (hiff.mp hd'),
        d, i, hl, hev, hd, by omega, fun r hr hri => ?_⟩
      have hr' : r = i ∨ r = i + 1 := by omega
      rcases hr' with rfl | rfl <;> omega
    · rw [Frame.find?_declare_of_ne hy] at hb
      exact h.present_succ hev hD (Event.silent_assign x).elim hb

theorem ofParameters {ps : List Parameter} (hev : E[i]? = some (.enter (ps.map (·.name))))
    (hD : blocksAt E i = 0) : Traced E (i + 1) 1 (Frame.ofParameters ps) := by
  have hdepth : blocksAt E (i + 1) = (1 : Nat) := by
    rw [blocksAt_succ hev, hD]
    rfl
  have hiff {y : Text} {d : Nat} : DeclaredIn E (i + 1) 1 y d ↔ d = i ∧ y ∈ ps.map (·.name) := by
    rw [declaredIn_succ_iff hev (by omega)]
    constructor
    · rintro (⟨_, hl, hlt, hopen⟩ | ⟨rfl, hy, _⟩)
      · have := hopen i hlt (Nat.le_refl i)
        omega
      · exact ⟨rfl, List.contains_iff_mem.mp hy⟩
    · rintro ⟨rfl, hy⟩
      exact Or.inr ⟨rfl, List.contains_iff_mem.mpr hy, hdepth⟩
  have hmem {y : Text} {b : Binding} (hb : (Frame.ofParameters ps).find? y = some b) :
      ∃ p ∈ ps, p.name = y ∧ b = p.binding := by
    have hname := Frame.name_of_find? hb
    have hb' := List.mem_of_find?_eq_some hb
    rw [Frame.ofParameters, List.mem_reverse, List.mem_map] at hb'
    obtain ⟨p, hp, rfl⟩ := hb'
    exact ⟨p, hp, hname, rfl⟩
  constructor
  · intro y hnone d hd
    obtain ⟨p, hp, hy⟩ := List.mem_map.mp (hiff.mp hd).2
    have hb := List.find?_eq_none.mp hnone p.binding
      (List.mem_reverse.mpr (List.mem_map_of_mem hp))
    exact hb (decide_eq_true hy)
  · intro y b hb
    obtain ⟨p, hp, hy, rfl⟩ := hmem hb
    refine Or.inl ⟨rfl, i, hiff.mpr ⟨rfl, ?_⟩, fun d' hd' => (hiff.mp hd').1,
      fun _ => Or.inl ⟨_, hev⟩⟩
    exact List.mem_map.mpr ⟨p, hp, hy⟩

/-- A block declares a name once. -/
theorem declaredIn_unique {f : Frame} (h : Traced E i D f) {d d' : Nat}
    (hd : DeclaredIn E i D x d) (hd' : DeclaredIn E i D x d') : d' = d := by
  cases hf : f.find? x with
  | none => exact absurd hd (h.absent x hf d)
  | some b =>
      rcases h.present x b hf with ⟨_, t, _, huniq, _⟩ | ⟨_, _, rfl, hnone, _⟩
      · exact (huniq d' hd').trans (huniq d hd).symm
      · exact absurd hd (hnone d)

theorem allGlobal {f : Frame} (h : Traced E i 0 f) : f.AllGlobal := by
  intro y b hb
  rcases h.present y b hb with ⟨hg, _⟩ | ⟨hg, _⟩
  · exact hg
  · exact hg

end Traced

/-! ## Operations on stacks of frames -/

namespace StackTraced

theorem absent {fs : List Frame} (h : StackTraced E i fs)
    (hx : (fs.findSome? fun f => f.find? x) = none) {D d : Nat} (hD : 0 < D)
    (hle : D ≤ fs.length) : ¬ DeclaredIn E i D x d := by
  induction fs with
  | nil =>
      rw [List.length_nil] at hle
      omega
  | cons f outer ih =>
      rw [List.findSome?_cons] at hx
      cases hf : f.find? x with
      | some b => simp [hf] at hx
      | none =>
          simp only [hf] at hx
          rw [List.length_cons] at hle
          by_cases heq : D = outer.length + 1
          · rw [heq]
            exact h.1.absent x hf d
          · exact ih h.2 hx (by omega)

/-- What is found in the frames of the open blocks is the variable of the innermost block
that declares the name, or a global variable that the method has assigned. -/
theorem present {fs : List Frame} (h : StackTraced E i fs) {b : Binding}
    (hb : (fs.findSome? fun f => f.find? x) = some b) :
    (b.info.isGlobal = false ∧ ∃ D, 0 < D ∧ D ≤ fs.length ∧ Owned E i D x b.isInitialized ∧
        ∀ D' d, D < D' → D' ≤ fs.length → ¬ DeclaredIn E i D' x d) ∨
      (b.info.isGlobal = true ∧ b.isInitialized = true ∧ Copied E i x ∧
        ∀ D d, 0 < D → D ≤ fs.length → ¬ DeclaredIn E i D x d) := by
  induction fs with
  | nil => simp at hb
  | cons f outer ih =>
      rw [List.findSome?_cons] at hb
      cases hf : f.find? x with
      | some b' =>
          simp only [hf] at hb
          obtain rfl := Option.some.inj hb
          rcases h.1.present x b' hf with ⟨hg, ho⟩ | ⟨hg, hi, hD, hc⟩
          · refine Or.inl ⟨by simpa using hg, outer.length + 1, by omega, by simp, ho, ?_⟩
            intro D' d hlt hle
            rw [List.length_cons] at hle
            omega
          · refine Or.inr ⟨hg, hi, hc, fun D d hpos hle => ?_⟩
            rw [List.length_cons] at hle
            obtain rfl : D = 1 := by omega
            exact hc.1 d
      | none =>
          simp only [hf] at hb
          have htop {d : Nat} := h.1.absent x hf d
          rcases ih h.2 hb with ⟨hg, D, hpos, hle, ho, habove⟩ | ⟨hg, hi, hc, hnone⟩
          · have hle₁ : D ≤ (f :: outer).length := by rw [List.length_cons]; omega
            refine Or.inl ⟨hg, D, hpos, hle₁, ho, fun D' d hlt hle' => ?_⟩
            rw [List.length_cons] at hle'
            by_cases heq : D' = outer.length + 1
            · rw [heq]
              exact htop
            · exact habove D' d hlt (by omega)
          · refine Or.inr ⟨hg, hi, hc, fun D d hpos hle => ?_⟩
            rw [List.length_cons] at hle
            by_cases heq : D = outer.length + 1
            · rw [heq]
              exact htop
            · exact hnone D d hpos (by omega)

theorem assignFirst {fs : List Frame} (hev : E[i]? = some (.assign x))
    (hD : fs.length ≤ blocksAt E (i + 1)) (h : StackTraced E i fs)
    (hx : ∀ D d, 0 < D → D ≤ fs.length → DeclaredIn E i D x d →
      (∀ d', DeclaredIn E i D x d' → d' = d) →
      (∀ D' d', D < D' → D' ≤ fs.length → ¬ DeclaredIn E i D' x d') → Given E (i + 1) x d) :
    StackTraced E (i + 1) (Env.assignFirst x fs) := by
  induction fs with
  | nil => trivial
  | cons f outer ih =>
      rw [List.length_cons] at hD hx
      rw [Env.assignFirst]
      split
      · refine ⟨h.1.assign hev (by omega) fun d hd huniq => ?_,
          h.2.succ hev (by omega) fun _ => (Event.silent_assign x).elim⟩
        exact hx _ d (by omega) (Nat.le_refl _) hd huniq fun D' d' hlt hle => by omega
      · next hf =>
        have hnone : f.find? x = none := by simpa [Frame.declares] using hf
        refine ⟨?_, ih (by omega) h.2 fun D d hpos hle hd huniq habove => ?_⟩
        · rw [Env.length_assignFirst]
          exact h.1.succ hev (by omega) fun _ => (Event.silent_assign x).elim
        · refine hx D d hpos (by omega) hd huniq fun D' d' hlt hle' => ?_
          by_cases heq : D' = outer.length + 1
          · rw [heq]
            exact h.1.absent x hnone d'
          · exact habove D' d' hlt (by omega)

theorem copy {fs : List Frame} (hev : E[i]? = some (.assign x)) (hpos : 0 < blocksAt E i)
    (hD : fs.length ≤ blocksAt E (i + 1)) (h : StackTraced E i fs)
    (hx : (fs.findSome? fun f => f.find? x) = none) {d : Nat} (hl : level E d = 0)
    (hd : Innermost E i x d) {info : Variable} (hinfo : info.isGlobal = true) :
    StackTraced E (i + 1) (Env.onMethodFrame (fun f => f.declare x info true) fs).state := by
  induction fs with
  | nil => trivial
  | cons f outer ih =>
      rw [List.findSome?_cons] at hx
      cases hf : f.find? x with
      | some b => simp [hf] at hx
      | none =>
          simp only [hf] at hx
          cases outer with
          | nil => exact ⟨h.1.copy hev hpos hf hl hd hinfo, trivial⟩
          | cons g outer =>
              rw [List.length_cons] at hD
              refine ⟨?_, ih (by omega) h.2 hx⟩
              rw [Env.length_state_onMethodFrame]
              exact h.1.succ hev hD fun _ => (Event.silent_assign x).elim

end StackTraced

/-! ## Which declaration is meant -/

/-- What is declared outside every block is so at the end of the text. -/
theorem declaredIn_length (hpos : ∀ r, 0 ≤ blocksAt E r) {d : Nat} (hx : Declares E d x)
    (hl : level E d = 0) : DeclaredIn E E.length 0 x d := by
  have hlt : d < E.length := by
    obtain ⟨ev, hev, _⟩ := hx
    exact (List.getElem?_eq_some_iff.mp hev).1
  exact ⟨hx, hl, hlt, fun r _ _ => hl ▸ hpos r⟩

/-- A visible declaration is global and seen from a method, or it belongs to one of the
open blocks. -/
theorem Visible.cases (hpos : ∀ r, 0 ≤ blocksAt E r) {d : Nat} (h : Visible E i x d) :
    level E d = 0 ∧ 0 < blocksAt E i ∧ DeclaredIn E E.length 0 x d ∨
      ∃ D : Nat, level E d = D ∧ D ≤ blocksAt E i ∧ DeclaredIn E i D x d := by
  obtain ⟨hx, ⟨hl, hi⟩ | hopen⟩ := h
  · exact Or.inl ⟨hl, hi, declaredIn_length hpos hx hl⟩
  · have hlevel : level E d = (level E d).toNat := (Int.toNat_of_nonneg (hpos (d + 1))).symm
    refine Or.inr ⟨(level E d).toNat, hlevel, ?_, hx, hlevel, hopen⟩
    rw [← hlevel]
    exact hopen.2 i hopen.1 (Nat.le_refl i)

/-- The only declaration of the innermost open block that has one.  Outside every method
the only block is that of the global variables. -/
theorem innermost_of_declaredIn (hpos : ∀ r, 0 ≤ blocksAt E r) {d : Nat}
    (hzero : D = 0 → blocksAt E i = 0) (hd : DeclaredIn E i D x d)
    (huniq : ∀ d', DeclaredIn E i D x d' → d' = d)
    (habove : ∀ D' d' : Nat, D < D' → D' ≤ blocksAt E i → ¬ DeclaredIn E i D' x d') :
    Innermost E i x d := by
  refine ⟨⟨hd.1, Or.inr hd.2.2⟩, fun d' hd' hne => ?_⟩
  rw [hd.2.1]
  rcases hd'.cases hpos with ⟨hl, hi, _⟩ | ⟨D', hl, hle, hd'⟩
  · rw [hl]
    by_cases hD0 : D = 0
    · rw [hzero hD0] at hi
      omega
    · omega
  · rw [hl]
    by_cases hlt : D < D'
    · exact absurd hd' (habove D' d' hlt hle)
    · have hneD : D' ≠ D := fun heq => hne (huniq d' (heq ▸ hd'))
      omega

/-- What a name stands for outside every method is its only declaration so far. -/
theorem Traced.innermost (hpos : ∀ r, 0 ≤ blocksAt E r) {f : Frame} (h : Traced E i 0 f)
    (hi : blocksAt E i = 0) {d : Nat} (hd : DeclaredIn E i 0 x d) : Innermost E i x d :=
  innermost_of_declaredIn hpos (fun _ => hi) hd (fun _ => h.declaredIn_unique hd)
    fun D' d' hlt hle => by omega

/-- The only global declaration, seen from a method whose open blocks have none. -/
theorem innermost_of_global (hpos : ∀ r, 0 ≤ blocksAt E r) (hi : 0 < blocksAt E i) {d : Nat}
    (hd : DeclaredIn E E.length 0 x d) (huniq : ∀ d', DeclaredIn E E.length 0 x d' → d' = d)
    (hnone : ∀ D d' : Nat, 0 < D → D ≤ blocksAt E i → ¬ DeclaredIn E i D x d') :
    Innermost E i x d := by
  refine ⟨⟨hd.1, Or.inl ⟨hd.2.1, hi⟩⟩, fun d' hd' hne => ?_⟩
  rcases hd'.cases hpos with ⟨_, _, hd'⟩ | ⟨D', hl, hle, hd'⟩
  · exact absurd (huniq d' hd') hne
  · by_cases hD' : D' = 0
    · subst hD'
      exact absurd (huniq d' (declaredIn_length hpos hd'.1 hl)) hne
    · exact absurd hd' (hnone D' d' (by omega) hle)

theorem Given.initialized_of_local {d : Nat} (hd : DeclaredIn E i D x d) (hD : 0 < D)
    (h : Given E i x d) : Initialized E i x d := by
  rcases h with h | h | ⟨q, hq, hassign, hin, _⟩
  · exact Or.inl h
  · exact Or.inr (Or.inl h)
  · refine Or.inr (Or.inr ⟨q, hassign, hin, Or.inl ⟨hq, fun r hqr hr => ?_⟩⟩)
    have hlevel := hd.2.1
    have hdq : d < q := by
      rcases hin.1.2 with ⟨hl, _⟩ | hopen
      · omega
      · exact hopen.1
    have := hd.2.2.2 r (by omega) hr
    omega

theorem Given.initialized_of_global {j d : Nat} (hl : level E d = 0)
    (hj : blocksAt E i = 0 → j ≤ i) (h : Given E j x d) : Initialized E i x d := by
  rcases h with h | h | ⟨q, hq, hassign, hin, hdepth⟩
  · exact Or.inl h
  · exact Or.inr (Or.inl h)
  · refine Or.inr (Or.inr ⟨q, hassign, hin, Or.inr ⟨hl, hdepth hl, fun hi => ?_⟩⟩)
    have := hj hi
    omega

end SJava
