/-
The outcome of an operation on a state.  A failing operation also leaves a state behind,
the one it had reached, and later operations go on from there; so the state stands beside
the failure and not in its place.
-/

namespace SJava

/-- The state that an operation leaves and, if it failed, why. -/
structure Outcome (ε σ : Type) where
  state : σ
  failure : Option ε
  deriving DecidableEq, Repr

namespace Outcome

variable {ε δ σ τ α : Type}

def ok (s : σ) : Outcome ε σ := ⟨s, none⟩

def fail (s : σ) (e : ε) : Outcome ε σ := ⟨s, some e⟩

/-- Goes on with the state of an operation that succeeded. -/
def andThen (o : Outcome ε σ) (next : σ → Outcome ε σ) : Outcome ε σ :=
  match o.failure with
  | none => next o.state
  | some _ => o

/-- Goes on if a check that changes nothing succeeds. -/
def require (s : σ) (check : Except ε Unit) (next : Outcome ε σ) : Outcome ε σ :=
  match check with
  | .ok _ => next
  | .error e => fail s e

/-- Takes the state for a part of a larger one. -/
def map (f : σ → τ) (o : Outcome ε σ) : Outcome ε τ := ⟨f o.state, o.failure⟩

/-- Says more about the failure. -/
def mapFailure (f : ε → δ) (o : Outcome ε σ) : Outcome δ σ := ⟨o.state, o.failure.map f⟩

/-- Runs one step for each item in order, up to the first failure. -/
def each (step : σ → α → Outcome ε σ) : σ → List α → Outcome ε σ
  | s, [] => ok s
  | s, a :: as => (step s a).andThen fun t => each step t as

@[simp] theorem andThen_ok (s : σ) (next : σ → Outcome ε σ) : (ok s).andThen next = next s := rfl

@[simp] theorem andThen_fail (s : σ) (e : ε) (next : σ → Outcome ε σ) :
    (fail s e).andThen next = fail s e := rfl

@[simp] theorem require_ok (s : σ) (u : Unit) (next : Outcome ε σ) :
    require s (.ok u) next = next := rfl

@[simp] theorem require_error (s : σ) (e : ε) (next : Outcome ε σ) :
    require s (.error e) next = fail s e := rfl

@[simp] theorem map_ok (f : σ → τ) (s : σ) : (ok s : Outcome ε σ).map f = ok (f s) := rfl

@[simp] theorem map_fail (f : σ → τ) (s : σ) (e : ε) : (fail s e).map f = fail (f s) e := rfl

/-- A sequence succeeds if both of its parts do. -/
theorem failure_andThen_eq_none {o : Outcome ε σ} {next : σ → Outcome ε σ} :
    (o.andThen next).failure = none ↔ o.failure = none ∧ (next o.state).failure = none := by
  cases h : o.failure <;> simp [andThen, h]

theorem andThen_assoc (o : Outcome ε σ) (f g : σ → Outcome ε σ) :
    (o.andThen f).andThen g = o.andThen fun s => (f s).andThen g := by
  cases h : o.failure <;> simp [andThen, h]

@[simp] theorem each_nil (step : σ → α → Outcome ε σ) (s : σ) : each step s [] = ok s := rfl

/-- The steps for a list are those for its first part and then those for its second. -/
theorem each_append (step : σ → α → Outcome ε σ) (s : σ) (as bs : List α) :
    each step s (as ++ bs) = (each step s as).andThen fun t => each step t bs := by
  induction as generalizing s with
  | nil => rfl
  | cons a as ih =>
    simp only [List.cons_append, each, andThen_assoc]
    congr 1
    funext t
    exact ih t

end Outcome
end SJava
