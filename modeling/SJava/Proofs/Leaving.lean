/-
What a block leaves behind.

Inside a block, variables are declared in its own frame and in the frames of the blocks
within it, and all of these are gone when the block is left.  Assignments reach further out:
one marks the variable of an enclosing block as holding a value, and one to a global variable
puts a copy into the frame of the method's body.  So the enclosing frames are not simply
those from before.  They declare the same variables, and values have been gained but none
lost (`Frame.KeptAt`); only the frame of the method's body may have gained variables, and
these are copies.  A block that is opened outside every other is the body of a method, where
the copies go with it, and nothing at all is left of it.
-/
import SJava.Proofs.Arena
import SJava.Proofs.Weakening

namespace SJava

/-! ## Frames -/

/-- The frame `f'` at position `i` has taken the place of `f`, over the global frame `g`.  It
has the same variables, with values for at least as many of them.  At the position of a
method's body it may also have copies, which hold a value, of global variables that hold
none. -/
structure Frame.KeptAt (g : Frame) (i : Nat) (f f' : Frame) : Prop where
  parent : f'.parent = f.parent
  finds : FindsBelow f.find? f'.find?
  gained : ∀ x b, f.find? x = none → f'.find? x = some b →
    i = 1 ∧ b.isInitialized = true ∧ g.find? x = some { b with isInitialized := false }

namespace Frame.KeptAt

variable {g f f' : Frame} {i : Nat} {x : Text}

theorem refl (g : Frame) (i : Nat) (f : Frame) : KeptAt g i f f where
  parent := rfl
  finds := .refl _
  gained y b hnone hb := by
    rw [hnone] at hb
    exact absurd hb (by simp)

theorem assign (h : KeptAt g i f f') (x : Text) : KeptAt g i f (f'.assign x) where
  parent := h.parent
  finds := by
    intro y b hb
    obtain ⟨b', hb', hbelow⟩ := h.finds y b hb
    by_cases hy : y = x
    · subst hy
      refine ⟨{ b' with isInitialized := true }, ?_, hbelow.info, fun _ => rfl⟩
      rw [find?_assign_self, hb']
      rfl
    · exact ⟨b', by rw [find?_assign_of_ne hy, hb'], hbelow⟩
  gained := by
    intro y b hnone hb
    by_cases hy : y = x
    · subst hy
      rw [find?_assign_self] at hb
      obtain ⟨b', hb', rfl⟩ := Option.map_eq_some_iff.mp hb
      obtain ⟨hi, _, hg⟩ := h.gained y b' hnone hb'
      exact ⟨hi, rfl, hg⟩
    · rw [find?_assign_of_ne hy] at hb
      exact h.gained y b hnone hb

/-- A copy of a global variable without a value.  If the frame has a variable of that name,
the copy is not made. -/
theorem copy (h : KeptAt g 1 f f') {v : Variable} (hx : g.find? x = some ⟨x, v, false⟩) :
    KeptAt g 1 f (f'.declare x v true).state := by
  cases hd : f'.declares x with
  | true =>
      rw [declare_of_declares hd]
      exact h
  | false =>
      have hnone : f'.find? x = none := by simpa [declares] using hd
      refine ⟨?_, fun y b hb => ?_, fun y b hy hb => ?_⟩
      · rw [Frame.declare, hd]
        exact h.parent
      · obtain ⟨b', hb', hbelow⟩ := h.finds y b hb
        have hne : y ≠ x := by
          rintro rfl
          rw [hnone] at hb'
          exact absurd hb' (by simp)
        exact ⟨b', by rw [find?_declare_of_ne hne, hb'], hbelow⟩
      · by_cases hne : y = x
        · subst hne
          rw [find?_declare_self hd] at hb
          obtain rfl := Option.some.inj hb
          exact ⟨rfl, rfl, hx⟩
        · rw [find?_declare_of_ne hne] at hb
          exact h.gained y b hy hb

end Frame.KeptAt

/-! ## Stacks of frames -/

/-- From the innermost frame outwards, each frame of the second stack has taken the place of
that of the first. -/
def Frame.StackKept (g : Frame) : List Frame → List Frame → Prop
  | [], [] => True
  | f :: outer, f' :: outer' => KeptAt g (outer.length + 1) f f' ∧ StackKept g outer outer'
  | _, _ => False

namespace Frame.StackKept

variable {g : Frame} {fs fs' : List Frame}

theorem refl (g : Frame) (fs : List Frame) : StackKept g fs fs := by
  induction fs with
  | nil => trivial
  | cons f outer ih => exact ⟨.refl g _ f, ih⟩

theorem length_eq (h : StackKept g fs fs') : fs'.length = fs.length := by
  induction fs generalizing fs' with
  | nil =>
      cases fs' with
      | nil => rfl
      | cons f' outer' => exact h.elim
  | cons f outer ih =>
      cases fs' with
      | nil => exact h.elim
      | cons f' outer' => rw [List.length_cons, List.length_cons, ih h.2]

theorem assignFirst (h : StackKept g fs fs') (x : Text) :
    StackKept g fs (Env.assignFirst x fs') := by
  induction fs generalizing fs' with
  | nil =>
      cases fs' with
      | nil => trivial
      | cons f' outer' => exact h.elim
  | cons f outer ih =>
      cases fs' with
      | nil => exact h.elim
      | cons f' outer' =>
          rw [Env.assignFirst]
          split
          · exact ⟨h.1.assign x, h.2⟩
          · exact ⟨h.1, ih h.2⟩

/-- Of all frames, only that of the method's body receives a copy. -/
theorem onMethodFrame (h : StackKept g fs fs') {x : Text} {v : Variable}
    (hx : g.find? x = some ⟨x, v, false⟩) :
    StackKept g fs (Env.onMethodFrame (fun f => f.declare x v true) fs').state := by
  induction fs generalizing fs' with
  | nil =>
      cases fs' with
      | nil => trivial
      | cons f' outer' => exact h.elim
  | cons f outer ih =>
      cases fs' with
      | nil => exact h.elim
      | cons f' outer' =>
          have hrest := ih h.2
          cases outer with
          | nil =>
              cases outer' with
              | nil => exact ⟨h.1.copy hx, trivial⟩
              | cons => exact h.2.elim
          | cons =>
              cases outer' with
              | nil => exact h.2.elim
              | cons => exact ⟨h.1, hrest⟩

/-- The same, position by position from the outermost frame inwards. -/
theorem keptAt (h : StackKept g fs fs') {i : Nat} {f : Frame}
    (hf : fs.reverse[i]? = some f) :
    ∃ f', fs'.reverse[i]? = some f' ∧ KeptAt g (i + 1) f f' := by
  induction fs generalizing fs' with
  | nil => simp at hf
  | cons f₀ outer ih =>
      cases fs' with
      | nil => exact h.elim
      | cons f₀' outer' =>
          have hlen := h.2.length_eq
          rw [List.reverse_cons] at hf ⊢
          by_cases hi : i < outer.length
          · rw [List.getElem?_append_left (by simpa using hi)] at hf
            rw [List.getElem?_append_left (by simpa [hlen] using hi)]
            exact ih h.2 hf
          · have hi' : i = outer.length := by
              have hlt := (List.getElem?_eq_some_iff.mp hf).1
              rw [List.length_append, List.length_reverse, List.length_singleton] at hlt
              omega
            subst hi'
            have hf₀ : f₀ = f := by simpa using hf
            exact ⟨f₀', by simp [← hlen], hf₀ ▸ h.1⟩

/-- Through the frames and the global one below them, the same names are found. -/
theorem findSome? (h : StackKept g fs fs') (x : Text) :
    Option.Rel Binding.Below ((fs ++ [g]).findSome? fun f => f.find? x)
      ((fs' ++ [g]).findSome? fun f => f.find? x) := by
  induction fs generalizing fs' with
  | nil =>
      cases fs' with
      | nil =>
          cases List.findSome? (fun f => f.find? x) ([] ++ [g]) with
          | none => exact .none
          | some b => exact .some (.refl b)
      | cons f' outer' => exact h.elim
  | cons f outer ih =>
      cases fs' with
      | nil => exact h.elim
      | cons f' outer' =>
          have hrest := ih h.2
          simp only [List.cons_append, List.findSome?_cons]
          cases hf : f.find? x with
          | some b =>
              obtain ⟨b', hb', hbelow⟩ := h.1.finds x b hf
              rw [hb']
              exact .some hbelow
          | none =>
              cases hf' : f'.find? x with
              | none => exact hrest
              | some b' =>
                  -- The copy stands for what was found in the global frame before.
                  obtain ⟨hone, hi, hg⟩ := h.1.gained x b' hf hf'
                  obtain rfl : outer = [] := List.length_eq_zero_iff.mp (by omega)
                  simp only [List.nil_append, List.findSome?_cons, hg]
                  exact .some ⟨rfl, fun _ => hi⟩

end Frame.StackKept

/-! ## Operations inside a block -/

namespace Env

/-- The operation works on blocks and variables, and not on methods. -/
def Operation.isLocal : Operation → Bool
  | .push | .pop | .declare _ _ _ _ | .assign _ => true
  | .addMethod _ | .enterMethod _ => false

/-- The environment `t` lies inside a block that was opened in `e`: below the frames of that
block and of those within it stand the frames of `e`, as they have been kept. -/
structure Within (e t : Env) : Prop extends SameGlobals e t where
  layered : t.Layered
  locals : ∃ inner kept, inner ≠ [] ∧ t.locals = inner ++ kept ∧
    Frame.StackKept e.globals e.locals kept

namespace Within

variable {e t : Env}

theorem start (h : e.Layered) : Within e e.push :=
  ⟨⟨rfl, rfl⟩, h.push, [Frame.empty (some e.locals.length)], e.locals, by simp, rfl, .refl _ _⟩

theorem push (h : Within e t) : Within e t.push := by
  obtain ⟨inner, kept, _, hl, hkept⟩ := h.locals
  refine ⟨⟨h.methods, h.globals⟩, h.layered.push,
    Frame.empty (some t.locals.length) :: inner, kept, List.cons_ne_nil _ _, ?_, hkept⟩
  rw [Env.push, hl]
  rfl

/-- The block that `e` has opened is not the one that is left, because there is still another
frame above those of `e`. -/
theorem pop (h : Within e t) (hdeep : e.depth < t.pop.state.depth) : Within e t.pop.state := by
  obtain ⟨inner, kept, hne, hl, hkept⟩ := h.locals
  obtain ⟨f, inner, rfl⟩ := List.exists_cons_of_ne_nil hne
  have hpop : t.pop.state = { t with locals := inner ++ kept } := by
    rw [Env.pop, hl]
    rfl
  have hlayered := h.layered.pop
  rw [hpop] at hdeep hlayered ⊢
  refine ⟨⟨h.methods, h.globals⟩, hlayered, inner, kept, ?_, rfl, hkept⟩
  rintro rfl
  have hlen := hkept.length_eq
  simp only [depth, List.nil_append] at hdeep
  omega

theorem declare (h : Within e t) (x : Text) (ty : Ty) (isFinal isInitialized : Bool) :
    Within e (t.declare x ty isFinal isInitialized).state := by
  obtain ⟨inner, kept, hne, hl, hkept⟩ := h.locals
  obtain ⟨f, inner, rfl⟩ := List.exists_cons_of_ne_nil hne
  have hlayered := h.layered.declare x ty isFinal isInitialized
  rw [Env.declare, hl] at hlayered ⊢
  exact ⟨⟨h.methods, h.globals⟩, hlayered,
    (f.declare x ⟨ty, isFinal, false⟩ isInitialized).state :: inner, kept,
    List.cons_ne_nil _ _, rfl, hkept⟩

theorem assign (h : Within e t) (x : Text) : Within e (t.assign x).state := by
  have hlayered := h.layered.assign x
  cases hb : t.find? x with
  | none =>
      rw [assign_of_find?_eq_none hb]
      exact h
  | some b =>
      cases hi : b.isInitialized with
      | true =>
          rw [assign_of_isInitialized hb hi]
          exact h
      | false =>
          obtain ⟨inner, kept, hne, hl, hkept⟩ := h.locals
          have hlocals : t.locals ≠ [] := by simp [hl, hne]
          rw [assign_eq hlocals h.layered.globals.allGlobal hb hi] at hlayered ⊢
          split at hlayered
          · next hg =>
            rw [if_pos hg]
            refine ⟨⟨h.methods, h.globals⟩, hlayered, ?_⟩
            show ∃ inner' kept', inner' ≠ [] ∧
              (onMethodFrame (fun f => f.declare x b.info true) t.locals).state = inner' ++ kept' ∧
              Frame.StackKept e.globals e.locals kept'
            rw [hl]
            by_cases hk : kept = []
            · -- The method's body is itself one of the frames that will be gone.
              refine ⟨(onMethodFrame (fun f => f.declare x b.info true) inner).state, kept, ?_,
                by rw [hk, List.append_nil, List.append_nil], hkept⟩
              rw [← List.length_pos_iff, length_state_onMethodFrame]
              exact List.length_pos_iff.mpr hne
            · have hcopy : e.globals.find? x = some ⟨x, b.info, false⟩ := by
                rw [← h.globals, h.layered.find?_globals hb hi hg, ← name_of_find? hb, ← hi]
              rw [onMethodFrame_append_of_ne_nil _ inner hk]
              exact ⟨inner, _, hne, rfl, hkept.onMethodFrame hcopy⟩
          · next hg =>
            rw [if_neg hg]
            refine ⟨⟨h.methods, h.globals⟩, hlayered, ?_⟩
            show ∃ inner' kept', inner' ≠ [] ∧ assignFirst x t.locals = inner' ++ kept' ∧
              Frame.StackKept e.globals e.locals kept'
            rw [hl, assignFirst_append]
            split
            · refine ⟨_, kept, ?_, rfl, hkept⟩
              rw [← List.length_pos_iff, length_assignFirst]
              exact List.length_pos_iff.mpr hne
            · exact ⟨inner, _, hne, rfl, hkept.assignFirst x⟩

theorem apply (h : Within e t) {op : Operation} (hop : op.isLocal)
    (hdeep : e.depth < (op.apply t).state.depth) : Within e (op.apply t).state := by
  cases op with
  | push => exact h.push
  | pop => exact h.pop hdeep
  | declare x ty isFinal isInitialized => exact h.declare x ty isFinal isInitialized
  | assign x => exact h.assign x
  | addMethod | enterMethod => exact absurd hop (by simp [Operation.isLocal])

/-- What one operation keeps, a sequence keeps that never leaves the block. -/
theorem perform (h : Within e t) {ops : List Operation} (hops : ∀ op ∈ ops, op.isLocal)
    (hdeep : ∀ k ≤ ops.length, e.depth < (t.perform (ops.take k)).depth) :
    Within e (t.perform ops) := by
  induction ops generalizing t with
  | nil => exact h
  | cons op ops ih =>
      rw [List.forall_mem_cons] at hops
      have hfirst := hdeep 1 (by simp)
      refine ih (h.apply hops.1 hfirst) hops.2 fun k hk => ?_
      exact hdeep (k + 1) (by simpa using hk)

end Within

/-! ## Leaving a block -/

/-- The environment `e'` is `e` again, up to the values that variables have been given. -/
structure Restored (e e' : Env) : Prop where
  methods : e'.methods = e.methods
  globals : e'.globals = e.globals
  depth : e'.depth = e.depth
  /-- The frames have the same variables, or they are the frame of a method's body that has
  gained copies of global variables. -/
  frames : ∀ i f, e.arena[i]? = some f →
    ∃ f', e'.arena[i]? = some f' ∧ Frame.KeptAt e.globals i f f'
  /-- A name stands for the same variable, and for none if it did before.  A variable that
  held a value holds one. -/
  finds : ∀ x, Option.Rel Binding.Below (e.find? x) (e'.find? x)
  /-- Outside every block, nothing has changed. -/
  outside : e.depth = 1 → e' = e

theorem Restored.of_stackKept {e : Env} {kept : List Frame}
    (h : Frame.StackKept e.globals e.locals kept) : Restored e { e with locals := kept } where
  methods := rfl
  globals := rfl
  depth := by rw [Env.depth, Env.depth, h.length_eq]
  frames := by
    intro i f hf
    cases i with
    | zero =>
        obtain rfl : e.globals = f := by simpa [arena] using hf
        exact ⟨e.globals, rfl, .refl _ _ _⟩
    | succ i => exact h.keptAt hf
  finds := h.findSome?
  outside := by
    intro hd
    have hl : e.locals = [] := List.length_eq_zero_iff.mp (by rw [Env.depth] at hd; omega)
    have hk : kept = [] := List.length_eq_zero_iff.mp (by rw [h.length_eq, hl]; rfl)
    rw [hk, ← hl]

theorem Within.restored {e t : Env} (h : Within e t) (hback : t.pop.state.depth = e.depth) :
    Restored e t.pop.state := by
  obtain ⟨inner, kept, hne, hl, hkept⟩ := h.locals
  obtain ⟨f, inner, rfl⟩ := List.exists_cons_of_ne_nil hne
  have hpop : t.pop.state = { t with locals := inner ++ kept } := by
    rw [Env.pop, hl]
    rfl
  have hinner : inner = [] := by
    have hlen := hkept.length_eq
    rw [hpop, Env.depth, Env.depth, List.length_append] at hback
    exact List.length_eq_zero_iff.mp (by omega)
  have henv : t.pop.state = { e with locals := kept } := by
    rw [hpop, hinner, List.nil_append, h.methods, h.globals]
  rw [henv]
  exact .of_stackKept hkept

/-- Let a block be opened in an environment that operations have led to, let any operations on
blocks and variables follow, succeeding or failing, that do not leave it, and then let it be
left.  The methods and the global frame are unchanged, and each other frame has the same
variables as before, but for copies of global variables in the frame of the method's body.
Values have been gained and none lost. -/
theorem leaving_block_restores (before ops : List Operation) (hops : ∀ op ∈ ops, op.isLocal)
    (hdeep : ∀ k ≤ ops.length,
      (empty.perform before).depth < ((empty.perform before).push.perform (ops.take k)).depth)
    (hback : ((empty.perform before).perform (.push :: (ops ++ [.pop]))).depth =
      (empty.perform before).depth) :
    Restored (empty.perform before)
      ((empty.perform before).perform (.push :: (ops ++ [.pop]))) := by
  have hlayered := Layered.perform before
  generalize empty.perform before = e at hlayered hdeep hback ⊢
  have hperform : e.perform (.push :: (ops ++ [.pop])) = (e.push.perform ops).pop.state := by
    rw [perform, List.foldl_cons, List.foldl_append]
    rfl
  rw [hperform] at hback ⊢
  exact ((Within.start hlayered).perform hops hdeep).restored hback

/-- A method's body with a local variable, and a global variable, both without a value. -/
def sampleBefore : List Operation :=
  [.declare ['g'] .int false false, .addMethod ⟨['m'], [⟨['a'], .char, true⟩]⟩,
    .enterMethod ['m'], .declare ['b'] .double false false]

/-- The block hides the parameter, and gives both variables a value from within another
block. -/
def sampleInside : List Operation :=
  [.declare ['a'] .int false false, .push, .declare ['a'] .string false true, .assign ['b'],
    .assign ['g'], .pop, .assign ['a'], .declare ['a'] .int false true]

theorem sampleInside_restores :
    (∀ op ∈ sampleInside, op.isLocal) ∧
      (∀ k ≤ sampleInside.length, (empty.perform sampleBefore).depth <
        ((empty.perform sampleBefore).push.perform (sampleInside.take k)).depth) ∧
      ((empty.perform sampleBefore).perform (.push :: (sampleInside ++ [.pop]))).depth =
        (empty.perform sampleBefore).depth ∧
      Restored (empty.perform sampleBefore)
        ((empty.perform sampleBefore).perform (.push :: (sampleInside ++ [.pop]))) :=
  have hops : ∀ op ∈ sampleInside, op.isLocal := by decide
  have hdeep : ∀ k ≤ sampleInside.length, (empty.perform sampleBefore).depth <
      ((empty.perform sampleBefore).push.perform (sampleInside.take k)).depth := by decide
  have hback : ((empty.perform sampleBefore).perform (.push :: (sampleInside ++ [.pop]))).depth =
      (empty.perform sampleBefore).depth := by decide
  ⟨hops, hdeep, hback, leaving_block_restores sampleBefore sampleInside hops hdeep hback⟩

-- The local variable has its value, and a copy of the global one stands before it.
example :
    ((empty.perform sampleBefore).perform (.push :: (sampleInside ++ [.pop]))).arena =
    [⟨none, [⟨['g'], ⟨.int, false, true⟩, false⟩]⟩,
      ⟨some 0, [⟨['g'], ⟨.int, false, true⟩, true⟩, ⟨['b'], ⟨.double, false, false⟩, true⟩,
        ⟨['a'], ⟨.char, true, false⟩, true⟩]⟩] := by
  decide

end Env
end SJava
