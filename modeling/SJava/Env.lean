/-
The environment of a line: the methods of the program and the frames of the blocks that
are open around the line.  The global frame is always there; the other frames form a stack
that is entered and left in last-in, first-out order, so the innermost frame that declares
a name decides what the name stands for.
-/
import SJava.Env.Frame

namespace SJava

/-- Methods, global variables, and the frames of the open blocks from the innermost
outwards. -/
structure Env where
  methods : List Signature
  globals : Frame
  locals : List Frame
  deriving DecidableEq, Repr

namespace Env

def empty : Env := ⟨[], Frame.empty none, []⟩

/-- The number of frames. -/
def depth (e : Env) : Nat := e.locals.length + 1

/-- Whether no block is open. -/
def isGlobal (e : Env) : Bool := e.depth = 1

/-- Whether the body of a method is open and no block within it. -/
def isMethodBody (e : Env) : Bool := e.depth = 2

/-- The frames from the innermost outwards. -/
def frames (e : Env) : List Frame := e.locals ++ [e.globals]

/-- What `x` stands for: its binding in the innermost frame that declares it. -/
def find? (e : Env) (x : Text) : Option Binding := e.frames.findSome? fun f => f.find? x

/-- Whether the innermost frame declares `x`. -/
def declaresHere (e : Env) (x : Text) : Bool := (e.locals.headD e.globals).declares x

/-! ## Blocks -/

/-- Opens a block. -/
def push (e : Env) : Env :=
  { e with locals := Frame.empty (some e.locals.length) :: e.locals }

/-- Closes the innermost block. -/
def pop (e : Env) : Outcome Fault Env :=
  match e.locals with
  | [] => .fail e .unmatchedBlockEnd
  | _ :: outer => .ok { e with locals := outer }

/-! ## Variables -/

/-- Declares a variable in the innermost frame.  It is global if that is the global frame. -/
def declare (e : Env) (x : Text) (ty : Ty) (isFinal isInitialized : Bool) : Outcome Fault Env :=
  match e.locals with
  | [] =>
    (e.globals.declare x ⟨ty, isFinal, true⟩ isInitialized).map fun f => { e with globals := f }
  | f :: outer =>
    (f.declare x ⟨ty, isFinal, false⟩ isInitialized).map fun f => { e with locals := f :: outer }

/-- Works on the outermost of the given frames, which is the frame of the method's body. -/
def onMethodFrame (op : Frame → Outcome Fault Frame) : List Frame → Outcome Fault (List Frame)
  | [] => .ok []
  | [f] => (op f).map fun f => [f]
  | f :: outer => (onMethodFrame op outer).map (f :: ·)

/-- Gives `x` a value in the first of the given frames that declares it. -/
def assignFirst (x : Text) : List Frame → List Frame
  | [] => []
  | f :: outer => if f.declares x then f.assign x :: outer else f :: assignFirst x outer

/-- Records that `x` holds a value.  A global variable that a method assigns gets its
value for the rest of that method only: the global frame stays as it is, and the frame of
the method's body receives a copy that holds a value. -/
def assign (e : Env) (x : Text) : Outcome Fault Env :=
  match e.find? x with
  | none => .fail e (.variableNotDeclared x)
  | some b =>
    if b.isInitialized then .ok e
    else if b.info.isGlobal && !e.isGlobal then
      (onMethodFrame (fun f => f.declare x b.info true) e.locals).map
        fun fs => { e with locals := fs }
    else if e.locals.any fun f => f.declares x then
      .ok { e with locals := assignFirst x e.locals }
    else .ok { e with globals := e.globals.assign x }

/-! ## Methods -/

def signature? (e : Env) (m : Text) : Option Signature := e.methods.find? fun s => s.name = m

/-- The signature of a method that must be known. -/
def signature (e : Env) (m : Text) : Except Fault Signature :=
  match e.signature? m with
  | none => .error (.methodNotDeclared m)
  | some s => .ok s

/-- Makes a method known under a name that is still free. -/
def addMethod (e : Env) (s : Signature) : Outcome Fault Env :=
  match e.signature? s.name with
  | some _ => .fail e (.methodAlreadyDeclared s.name)
  | none => .ok { e with methods := s :: e.methods }

/-- Opens the body of a method, whose frame starts with the parameters.  If two of them
share a name the block stays open with those before the second. -/
def enterMethod (e : Env) (m : Text) : Outcome Fault Env :=
  match e.signature m with
  | .error fault => .fail e fault
  | .ok s => Outcome.each (fun e p => e.declare p.name p.ty p.isFinal true) e.push s.parameters

/-! ## Operations seen through `depth` and `find?` -/

@[simp] theorem depth_push (e : Env) : e.push.depth = e.depth + 1 := rfl

/-- A block that declares nothing yet hides nothing. -/
@[simp] theorem find?_push (e : Env) (x : Text) : e.push.find? x = e.find? x := rfl

/-- Closing a block that was just opened undoes the opening. -/
@[simp] theorem pop_push (e : Env) : e.push.pop = .ok e := rfl

theorem isGlobal_iff {e : Env} : e.isGlobal ↔ e.locals = [] := by
  simp [isGlobal, depth]

theorem isGlobal_eq_false_iff {e : Env} : e.isGlobal = false ↔ 2 ≤ e.depth := by
  rw [isGlobal, depth, decide_eq_false_iff_not]
  omega

/-- Only the global frame cannot be closed. -/
theorem failure_pop (e : Env) :
    e.pop.failure = if e.isGlobal then some .unmatchedBlockEnd else none := by
  cases h : e.locals <;> simp [pop, h, isGlobal, depth, Outcome.ok, Outcome.fail]

theorem depth_declare (e : Env) (x : Text) (ty : Ty) (isFinal i : Bool) :
    (e.declare x ty isFinal i).state.depth = e.depth := by
  cases h : e.locals <;> simp [declare, h, depth, Outcome.map]

/-- A declaration leaves what all other names stand for. -/
theorem find?_declare_of_ne {e : Env} {x y : Text} (h : y ≠ x) (ty : Ty) (isFinal i : Bool) :
    (e.declare x ty isFinal i).state.find? y = e.find? y := by
  cases hl : e.locals with
  | nil =>
    simp [declare, hl, find?, frames, Outcome.map, Frame.find?_declare_of_ne h]
  | cons f outer =>
    simp only [declare, hl, find?, frames, Outcome.map, List.cons_append, List.findSome?_cons]
    rw [Frame.find?_declare_of_ne h]

/-- The binding of a name carries that name. -/
theorem name_of_find? {e : Env} {x : Text} {b : Binding} (h : e.find? x = some b) :
    b.name = x := by
  obtain ⟨f, _, hf⟩ := List.exists_of_findSome?_eq_some h
  exact Frame.name_of_find? hf

/-- A name that stands for nothing cannot be given a value, and nothing changes. -/
theorem assign_of_find?_eq_none {e : Env} {x : Text} (h : e.find? x = none) :
    e.assign x = .fail e (.variableNotDeclared x) := by
  simp [assign, h]

/-- A variable that holds a value keeps it. -/
theorem assign_of_isInitialized {e : Env} {x : Text} {b : Binding} (h : e.find? x = some b)
    (hb : b.isInitialized) : e.assign x = .ok e := by
  simp [assign, h, hb]

theorem signature?_addMethod {e : Env} {s : Signature} (h : e.signature? s.name = none) :
    (e.addMethod s).state.signature? s.name = some s := by
  rw [addMethod, h]
  simp [Outcome.ok, signature?]

end Env
end SJava
