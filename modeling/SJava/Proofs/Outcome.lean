/-
Runs of operations that can fail.

`result?` forgets why an operation failed, and everything that is said about acceptance is
said through it: a sequence of operations is then a sequence of `bind`s.  What a failing
run leaves behind is said through `state` instead, and `state_each` is the induction for
it: a property that every step keeps, failing or not, holds at the end of every run.
-/
import SJava.Outcome

namespace SJava
namespace Outcome

variable {ε δ σ τ α β : Type}

/-- The state of an operation that succeeded. -/
def result? (o : Outcome ε σ) : Option σ :=
  match o.failure with
  | none => some o.state
  | some _ => none

@[simp] theorem result?_ok (s : σ) : (ok s : Outcome ε σ).result? = some s := rfl

@[simp] theorem result?_fail (s : σ) (e : ε) : (fail s e).result? = none := rfl

theorem result?_eq_some_iff {o : Outcome ε σ} {s : σ} :
    o.result? = some s ↔ o.failure = none ∧ o.state = s := by
  cases h : o.failure <;> simp [result?, h]

theorem result?_eq_some_iff_eq_ok {o : Outcome ε σ} {s : σ} : o.result? = some s ↔ o = ok s := by
  rw [result?_eq_some_iff]
  cases o
  simp [ok, and_comm]

theorem failure_eq_none_iff {o : Outcome ε σ} : o.failure = none ↔ o.result? = some o.state := by
  simp [result?_eq_some_iff]

theorem isSome_result?_iff {o : Outcome ε σ} : o.result?.isSome ↔ o.failure = none := by
  cases h : o.failure <;> simp [result?, h]

@[simp] theorem result?_map (f : σ → τ) (o : Outcome ε σ) :
    (o.map f).result? = o.result?.map f := by
  cases h : o.failure <;> simp [result?, map, h]

@[simp] theorem result?_mapFailure (f : ε → δ) (o : Outcome ε σ) :
    (o.mapFailure f).result? = o.result? := by
  cases h : o.failure <;> simp [result?, mapFailure, h]

theorem result?_andThen (o : Outcome ε σ) (next : σ → Outcome ε σ) :
    (o.andThen next).result? = o.result?.bind fun s => (next s).result? := by
  cases h : o.failure <;> simp [result?, andThen, h]

theorem andThen_ok_right (o : Outcome ε σ) : o.andThen ok = o := by
  obtain ⟨s, f⟩ := o
  cases f <;> rfl

theorem result?_require (s : σ) (check : Except ε Unit) (next : Outcome ε σ) :
    (require s check next).result? = if check.isOk then next.result? else none := by
  cases check <;> simp [Except.isOk, Except.toBool]

theorem failure_require {s : σ} {check : Except ε Unit} {next : Outcome ε σ} {e : ε}
    (h : (require s check next).failure = some e) : check = .error e ∨ next.failure = some e := by
  cases check with
  | ok u => exact Or.inr h
  | error e' => exact Or.inl (congrArg _ (Option.some.inj h))

theorem each_singleton (step : σ → α → Outcome ε σ) (s : σ) (a : α) :
    each step s [a] = step s a :=
  andThen_ok_right _

theorem result?_each_cons (step : σ → α → Outcome ε σ) (s : σ) (a : α) (as : List α) :
    (each step s (a :: as)).result? =
      (step s a).result?.bind fun t => (each step t as).result? := by
  rw [each, result?_andThen]

theorem result?_each_singleton (step : σ → α → Outcome ε σ) (s : σ) (a : α) :
    (each step s [a]).result? = (step s a).result? := by
  rw [each_singleton]

theorem result?_each_append (step : σ → α → Outcome ε σ) (s : σ) (as bs : List α) :
    (each step s (as ++ bs)).result? =
      (each step s as).result?.bind fun t => (each step t bs).result? := by
  rw [each_append, result?_andThen]

theorem failure_each_of_append {step : σ → α → Outcome ε σ} {s : σ} {as bs : List α}
    (h : (each step s (as ++ bs)).failure = none) : (each step s as).failure = none := by
  rw [each_append, failure_andThen_eq_none] at h
  exact h.1

theorem each_take_succ {step : σ → α → Outcome ε σ} {as : List α} {k : Nat} {a : α}
    (ha : as[k]? = some a) (s : σ) :
    each step s (as.take (k + 1)) = (each step s (as.take k)).andThen fun t => step t a := by
  rw [List.take_add_one, ha, Option.toList_some, each_append]
  simp only [each]
  congr 1
  funext t
  exact andThen_ok_right (step t a)

/-- Items that change nothing can be left out of a run. -/
theorem each_filter {step : σ → α → Outcome ε σ} {keep : α → Bool}
    (h : ∀ s a, keep a = false → step s a = ok s) (s : σ) (as : List α) :
    each step s (as.filter keep) = each step s as := by
  induction as generalizing s with
  | nil => rfl
  | cons a as ih =>
      cases hk : keep a with
      | true =>
          rw [List.filter_cons_of_pos hk, each, each]
          congr 1
          funext t
          exact ih t
      | false =>
          rw [List.filter_cons_of_neg (by simp [hk]), ih, each, h s a hk, andThen_ok]

/-! ## What a run keeps -/

theorem state_andThen {P : σ → Prop} {o : Outcome ε σ} {next : σ → Outcome ε σ}
    (ho : P o.state) (hnext : ∀ s, P s → P (next s).state) : P (o.andThen next).state := by
  cases h : o.failure with
  | none => simpa [andThen, h] using hnext _ ho
  | some e => simpa [andThen, h] using ho

theorem failure_each {Q : ε → Prop} {step : σ → α → Outcome ε σ}
    (hstep : ∀ s a e, (step s a).failure = some e → Q e) {s : σ} {as : List α} {e : ε}
    (h : (each step s as).failure = some e) : Q e := by
  induction as generalizing s with
  | nil => simp [ok] at h
  | cons a as ih =>
      rw [each, andThen] at h
      split at h
      · exact ih h
      · exact hstep s a e h

/-- A run that fails does so at an item, after a part of the run that succeeded, and it leaves
what the step for that item leaves. -/
theorem exists_append_of_failure_each {step : σ → α → Outcome ε σ} {s : σ} {as : List α} {e : ε}
    (h : (each step s as).failure = some e) :
    ∃ before a after t, as = before ++ a :: after ∧ each step s before = ok t ∧
      each step s as = step t a := by
  induction as generalizing s with
  | nil => simp [ok] at h
  | cons a as ih =>
      rw [each, andThen] at h ⊢
      split at h
      · next hf =>
        obtain ⟨before, b, after, t, rfl, hbefore, hstep⟩ := ih h
        have hfirst : step s a = ok (step s a).state :=
          result?_eq_some_iff_eq_ok.mp (failure_eq_none_iff.mp hf)
        refine ⟨a :: before, b, after, t, rfl, ?_, hstep⟩
        rw [each, hfirst, andThen_ok, hbefore]
      · exact ⟨[], a, as, s, rfl, rfl, rfl⟩

/-- What the step of every item keeps holds at the end of a run, wherever the run ends. -/
theorem state_each_of_mem {P : σ → Prop} {step : σ → α → Outcome ε σ} {as : List α}
    (hstep : ∀ s, ∀ a ∈ as, P s → P (step s a).state) {s : σ} (hs : P s) :
    P (each step s as).state := by
  induction as generalizing s with
  | nil => exact hs
  | cons a as ih =>
      rw [each]
      refine state_andThen (hstep s a List.mem_cons_self hs) fun t ht => ih ?_ ht
      exact fun u b hb => hstep u b (List.mem_cons_of_mem a hb)

theorem state_each {P : σ → Prop} {step : σ → α → Outcome ε σ}
    (hstep : ∀ s a, P s → P (step s a).state) {s : σ} (hs : P s) (as : List α) :
    P (each step s as).state :=
  state_each_of_mem (fun t a _ => hstep t a) hs

/-! ## Parts of states -/

/-- Looks at a part of the state and at a part of the failure. -/
def view (f : σ → τ) (g : ε → δ) (o : Outcome ε σ) : Outcome δ τ := (o.map f).mapFailure g

@[simp] theorem state_view (f : σ → τ) (g : ε → δ) (o : Outcome ε σ) :
    (o.view f g).state = f o.state := rfl

@[simp] theorem failure_view (f : σ → τ) (g : ε → δ) (o : Outcome ε σ) :
    (o.view f g).failure = o.failure.map g := rfl

@[simp] theorem result?_view (f : σ → τ) (g : ε → δ) (o : Outcome ε σ) :
    (o.view f g).result? = o.result?.map f := by
  rw [view, result?_mapFailure, result?_map]

/-- A sequence seen through a part of the state, if its second half depends on that part
only. -/
theorem view_andThen {f : σ → τ} {g : ε → δ} {next : σ → Outcome ε σ} (next' : τ → Outcome δ τ)
    (h : ∀ s, (next s).view f g = next' (f s)) (o : Outcome ε σ) :
    (o.andThen next).view f g = (o.view f g).andThen next' := by
  cases hf : o.failure with
  | none => simpa [andThen, hf] using h o.state
  | some e => simp [andThen, hf]

theorem map_require (f : σ → τ) (s : σ) (check : Except ε Unit) (next : Outcome ε σ) :
    (require s check next).map f = require (f s) check (next.map f) := by
  cases check <;> rfl

/-- A change of the state that every step keeps can be made before a run or after it. -/
theorem each_map {step : σ → α → Outcome ε σ} {f : σ → σ}
    (hstep : ∀ s a, step (f s) a = (step s a).map f) (s : σ) (as : List α) :
    each step (f s) as = (each step s as).map f := by
  induction as generalizing s with
  | nil => rfl
  | cons a as ih =>
      rw [each, each, hstep]
      cases hf : (step s a).failure with
      | none => simpa [andThen, map, hf] using ih (step s a).state
      | some e => simp [andThen, map, hf]

/-- A run that looks at a part of each state, and at some of the items, is a run over
those items from that part. -/
theorem each_filterMap {step : σ → α → Outcome ε σ} {step' : τ → β → Outcome δ τ}
    {f : σ → τ} {g : ε → δ} {keep : α → Option β} {P : σ → Prop}
    (hP : ∀ s a, P s → P (step s a).state)
    (hstep : ∀ s a, P s → (step s a).view f g = (keep a).elim (ok (f s)) (step' (f s)))
    {s : σ} (hs : P s) (as : List α) :
    (each step s as).view f g = each step' (f s) (as.filterMap keep) := by
  induction as generalizing s with
  | nil => rfl
  | cons a as ih =>
      have ha := hstep s a hs
      have hstate := congrArg Outcome.state ha
      have hfail := congrArg Outcome.failure ha
      have hrest := ih (hP s a hs)
      rw [state_view] at hstate
      rw [failure_view] at hfail
      cases hk : keep a with
      | none =>
          rw [hk] at hstate hfail
          have hf : (step s a).failure = none := Option.map_eq_none_iff.mp hfail
          rw [List.filterMap_cons_none hk, each, andThen, hf, hrest, hstate]
          rfl
      | some b =>
          rw [hk, Option.elim_some] at ha hstate hfail
          rw [List.filterMap_cons_some hk, each, each, andThen, andThen, ← hfail]
          cases hf : (step s a).failure with
          | none => exact hrest.trans (congrArg (each step' · _) hstate)
          | some e => exact ha

/-! ## Runs side by side -/

/-- If the operation `o` succeeds then so does `o'`, and leaves a related state. -/
def MatchedBy (R : σ → τ → Prop) (o : Outcome ε σ) (o' : Outcome δ τ) : Prop :=
  ∀ s, o.result? = some s → ∃ t, o'.result? = some t ∧ R s t

section MatchedBy

variable {R : σ → τ → Prop} {o : Outcome ε σ} {o' : Outcome δ τ} {s : σ} {t : τ}

theorem MatchedBy.ok (h : R s t) : MatchedBy R (ok s : Outcome ε σ) (ok t : Outcome δ τ) := by
  intro u hu
  obtain rfl := Option.some.inj hu
  exact ⟨t, rfl, h⟩

theorem MatchedBy.of_result?_eq_none (h : o.result? = none) : MatchedBy R o o' := by
  intro u hu
  rw [h] at hu
  exact absurd hu (by simp)

theorem MatchedBy.fail (e : ε) : MatchedBy R (fail s e) o' := .of_result?_eq_none rfl

theorem MatchedBy.mono {R' : σ → τ → Prop} (h : MatchedBy R o o')
    (hR : ∀ u v, R u v → R' u v) : MatchedBy R' o o' := by
  intro u hu
  obtain ⟨v, hv, huv⟩ := h u hu
  exact ⟨v, hv, hR u v huv⟩

theorem MatchedBy.map {σ' τ' : Type} {R' : σ' → τ' → Prop} {f : σ → σ'} {g : τ → τ'}
    (h : MatchedBy R o o') (hfg : ∀ u v, R u v → R' (f u) (g v)) :
    MatchedBy R' (o.map f) (o'.map g) := by
  intro u hu
  rw [result?_map] at hu
  obtain ⟨u', hu', rfl⟩ := Option.map_eq_some_iff.mp hu
  obtain ⟨v, hv, huv⟩ := h u' hu'
  exact ⟨g v, by rw [result?_map, hv]; rfl, hfg u' v huv⟩

theorem MatchedBy.require {check : Except ε Unit} {check' : Except δ Unit}
    (hc : check.isOk → check'.isOk) (h : MatchedBy R o o') :
    MatchedBy R (require s check o) (require t check' o') := by
  intro u hu
  rw [result?_require] at hu
  split at hu
  · next hok =>
    rw [result?_require, if_pos (hc hok)]
    exact h u hu
  · simp at hu

theorem MatchedBy.andThen {next : σ → Outcome ε σ} {next' : τ → Outcome δ τ}
    (h : MatchedBy R o o') (hnext : ∀ u v, R u v → MatchedBy R (next u) (next' v)) :
    MatchedBy R (o.andThen next) (o'.andThen next') := by
  intro u hu
  rw [result?_andThen] at hu
  obtain ⟨u', hu', hu⟩ := Option.bind_eq_some_iff.mp hu
  obtain ⟨v, hv, huv⟩ := h u' hu'
  obtain ⟨w, hw, huw⟩ := hnext u' v huv u hu
  exact ⟨w, by rw [result?_andThen, hv]; exact hw, huw⟩

/-- If each step of a run is matched from related states, the run is. -/
theorem MatchedBy.each {step : σ → α → Outcome ε σ} {step' : τ → α → Outcome δ τ}
    (hstep : ∀ u v a, R u v → MatchedBy R (step u a) (step' v a)) (h : R s t) (as : List α) :
    MatchedBy R (each step s as) (each step' t as) := by
  induction as generalizing s t with
  | nil => exact .ok h
  | cons a as ih => exact (hstep s t a h).andThen fun u v huv => ih huv

end MatchedBy

end Outcome
end SJava
