/-
Where variables occur in a program, and which declaration an occurrence means.

A program is read as the sequence of the things it does with variables and blocks, in the
order of its text.  Positions in this sequence are positions in the text.  Visibility is
said in terms of positions and of the number of open blocks alone: a declaration counts
from its position on, for as long as its block stays open, and one outside every block
counts in all methods.  No environment, no frame and no walk takes part in it.
-/
import SJava.Proofs.Progress

namespace SJava

open Text

/-- Something that a program does with variables or blocks. -/
inductive Event where
  | enter (parameters : List Text)
  | openBlock
  | close
  | use (x : Text)
  | declare (x : Text) (hasValue : Bool)
  | assign (x : Text)
  deriving DecidableEq, Repr

namespace Event

def change : Event → Int
  | enter _ | openBlock => 1
  | close => -1
  | use _ | declare _ _ | assign _ => 0

def declares (x : Text) : Event → Bool
  | enter parameters => parameters.contains x
  | declare y _ => y == x
  | _ => false

/-- The event declares nothing. -/
def Silent (ev : Event) : Prop := ∀ x, ev.declares x = false

theorem silent_use (x : Text) : (use x).Silent := fun _ => rfl

theorem silent_assign (x : Text) : (assign x).Silent := fun _ => rfl

theorem silent_openBlock : openBlock.Silent := fun _ => rfl

theorem silent_close : close.Silent := fun _ => rfl

theorem Silent.elim {ev : Event} (h : ev.Silent) {P : Prop} {x : Text} (hx : ev.declares x) :
    P := by
  rw [h x] at hx
  exact absurd hx Bool.false_ne_true

end Event

/-! ## The events of a text -/

/-- A text that stands for a value is the use of a variable, if it is a name and none of
the two constants. -/
def valueEvents (v : Text) : List Event :=
  if Name.isVariable v && !Literal.isBoolean v then [.use v] else []

/-- A clause uses its value before it does anything to its name. -/
def Clause.events (target : Clause → Event) (c : Clause) : List Event :=
  c.value.elim [] valueEvents ++ [target c]

def parameterNames (header : Text) : List Text :=
  ((Header.parse? header).bind fun h => h.signature.toOption).elim [] fun s =>
    s.parameters.map (·.name)

def lineEvents (line : Text) : List Event :=
  match Category.of line with
  | .variableDeclaration =>
    (Declaration.parse? line).elim [] fun d =>
      d.clauses.flatMap (Clause.events fun c => .declare c.name c.value.isSome)
  | .variableAssignment =>
    (Assignment.parse? line).elim [] fun cs => cs.flatMap (Clause.events fun c => .assign c.name)
  | .methodCall => (Call.parse? line).elim [] fun c => (items c.arguments).flatMap valueEvents
  | .conditionalBlockStart =>
    ((Condition.cutOperators (Condition.text line)).flatMap fun s => valueEvents (trim s)) ++
      [.openBlock]
  | .methodDeclaration => [.enter (parameterNames line)]
  | .blockEnd => [.close]
  | .returnStatement | .illegalComment | .unknown => []

/-- The events of a program in the order of its text. -/
def events (lines : List Text) : List Event := (significant lines).flatMap lineEvents

/-! ## Visibility -/

section Visibility

variable (E : List Event)

/-- How many blocks some events leave open. -/
def rise (evs : List Event) : Int := evs.foldr (fun ev n => ev.change + n) 0

/-- The number of blocks that are open before the event at position `p`. -/
def blocksAt (p : Nat) : Int := rise (E.take p)

def Declares (d : Nat) (x : Text) : Prop := ∃ ev, E[d]? = some ev ∧ ev.declares x

/-- The number of blocks around a declaration at position `d`.  The block of a method is
around its parameters. -/
def level (d : Nat) : Int := blocksAt E (d + 1)

/-- Position `d` comes before `p`, and the block around `d` stays open until `p`. -/
def OpenTo (d p : Nat) : Prop := d < p ∧ ∀ r, d < r → r ≤ p → level E d ≤ blocksAt E r

/-- At position `p` the declaration of `x` at position `d` is visible: it is global and `p`
lies in a method, or it comes before and its block is still open. -/
def Visible (p : Nat) (x : Text) (d : Nat) : Prop :=
  Declares E d x ∧ (level E d = 0 ∧ 0 < blocksAt E p ∨ OpenTo E d p)

/-- Among the visible declarations of `x` the one at `d` has the most blocks around it. -/
def Innermost (p : Nat) (x : Text) (d : Nat) : Prop :=
  Visible E p x d ∧ ∀ d', Visible E p x d' → d' ≠ d → level E d' < level E d

/-- Position `q` comes before `p` in the same method. -/
def SameMethod (q p : Nat) : Prop := q < p ∧ ∀ r, q ≤ r → r ≤ p → 0 < blocksAt E r

/-- By position `p` the variable `x` that is declared at `d` has a value.  It is a
parameter, or its declaration gives it one, or an assignment does that means this
declaration: one before `p` in the same method or, for a global variable, one outside
every method.  The latter need only come before `p` if `p` is outside every method too. -/
def Initialized (p : Nat) (x : Text) (d : Nat) : Prop :=
  (∃ parameters, E[d]? = some (.enter parameters)) ∨ E[d]? = some (.declare x true) ∨
    ∃ q, E[q]? = some (.assign x) ∧ Innermost E q x d ∧
      (SameMethod E q p ∨ level E d = 0 ∧ blocksAt E q = 0 ∧ (blocksAt E p = 0 → q < p))

/-- A variable that is used at position `p` is declared and has a value there. -/
def SoundAt (p : Nat) : Prop :=
  ∀ x, E[p]? = some (.use x) → ∃ d, Innermost E p x d ∧ Initialized E p x d

end Visibility

/-! ## Counting blocks -/

theorem rise_cons (ev : Event) (evs : List Event) : rise (ev :: evs) = ev.change + rise evs := rfl

theorem rise_append (as bs : List Event) : rise (as ++ bs) = rise as + rise bs := by
  induction as with
  | nil => exact (Int.zero_add _).symm
  | cons ev as ih =>
      rw [List.cons_append, rise_cons, rise_cons, ih]
      omega

theorem rise_eq_zero {evs : List Event} (h : ∀ ev ∈ evs, ev.change = 0) : rise evs = 0 := by
  induction evs with
  | nil => rfl
  | cons ev evs ih =>
      have hev := h ev List.mem_cons_self
      have hrest := ih fun ev' hev' => h ev' (List.mem_cons_of_mem _ hev')
      rw [rise_cons]
      omega

theorem blocksAt_succ {E : List Event} {i : Nat} {ev : Event} (h : E[i]? = some ev) :
    blocksAt E (i + 1) = blocksAt E i + ev.change := by
  rw [blocksAt, List.take_add_one, h, rise_append, Option.toList_some, rise_cons]
  simp [rise, blocksAt]

theorem blocksAt_append {pre evs post : List Event} {k : Nat} (hk : k ≤ evs.length) :
    blocksAt (pre ++ (evs ++ post)) (pre.length + k) = rise pre + rise (evs.take k) := by
  rw [blocksAt, List.take_length_add_append, rise_append, List.take_append_of_le_length hk]

/-- The events close the blocks that they open, and no others. -/
def Balanced (evs : List Event) : Prop := rise evs = 0 ∧ ∀ k, 0 ≤ rise (evs.take k)

namespace Balanced

theorem of_change {evs : List Event} (h : ∀ ev ∈ evs, ev.change = 0) : Balanced evs := by
  refine ⟨rise_eq_zero h, fun k => ?_⟩
  have hk := rise_eq_zero fun ev hev => h ev (List.mem_of_mem_take (i := k) hev)
  omega

theorem append {as bs : List Event} (ha : Balanced as) (hb : Balanced bs) :
    Balanced (as ++ bs) := by
  refine ⟨by rw [rise_append, ha.1, hb.1]; rfl, fun k => ?_⟩
  rw [List.take_append, rise_append]
  have h₁ := ha.2 k
  have h₂ := hb.2 (k - as.length)
  omega

/-- Within a block one more is open than the events of its body say. -/
theorem block {opening : Event} (ho : opening.change = 1) {body : List Event}
    (hb : Balanced body) : Balanced (opening :: (body ++ [.close])) := by
  constructor
  · rw [rise_cons, rise_append, ho, hb.1]
    rfl
  · intro k
    cases k with
    | zero => rw [List.take_zero]; decide
    | succ k =>
        rw [List.take_succ_cons, rise_cons, List.take_append, rise_append, ho]
        have hbody := hb.2 k
        cases hk : k - body.length with
        | zero =>
            rw [List.take_zero]
            show 0 ≤ 1 + (rise (body.take k) + 0)
            omega
        | succ n =>
            rw [List.take_of_length_le (show [Event.close].length ≤ n + 1 by simp)]
            show 0 ≤ 1 + (rise (body.take k) + -1)
            omega

end Balanced
end SJava
