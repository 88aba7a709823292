/-
Programs as trees, and what makes them legal.

A program is a sequence of global lines and methods, a method a header with a body, and a
body a list of statements, of which conditions have a body again.  The lines of a tree
carry the proof of their category, so a tree is well formed by its type, and `lines` writes
it out again.  `isLegal` judges a tree by recursion on it.  It knows nothing of walks,
counters and flags: the global lines make up one global frame, the headers one list of
signatures, and each method is then judged on its own from there.
-/
import SJava.Proofs.Progress

namespace SJava

open Text

/-- A line of the given category without white space around it. -/
structure Line (c : Category) where
  text : Text
  trim_text : trim text = text
  of_text : Category.of text = c

inductive Statement where
  | declaration (line : Line .variableDeclaration)
  | assignment (line : Line .variableAssignment)
  | call (line : Line .methodCall)
  | leave (line : Line .returnStatement)
  | block (header : Line .conditionalBlockStart) (body : List Statement)

inductive Item where
  | declaration (line : Line .variableDeclaration)
  | assignment (line : Line .variableAssignment)
  | method (header : Line .methodDeclaration) (body : List Statement)

structure Program where
  items : List Item

/-- The line that ends a block. -/
def closing : Text := ['\x7d']

/-! ## The lines of a program -/

namespace Statement

mutual
def lines : Statement → List Text
  | declaration line => [line.text]
  | assignment line => [line.text]
  | call line => [line.text]
  | leave line => [line.text]
  | block header body => header.text :: (linesOf body ++ [closing])

def linesOf : List Statement → List Text
  | [] => []
  | s :: rest => s.lines ++ linesOf rest
end

end Statement

def Item.lines : Item → List Text
  | declaration line => [line.text]
  | assignment line => [line.text]
  | method header body => header.text :: (Statement.linesOf body ++ [closing])

def Program.lines (p : Program) : List Text := p.items.flatMap Item.lines

/-! ## Statements -/

/-- Forgets the innermost block. -/
def Env.leave (e : Env) : Env := { e with locals := e.locals.tail }

namespace Statement

def isReturn : Statement → Bool
  | leave _ => true
  | _ => false

/- The environment after a statement that is legal in `e`.  A block is judged in a frame of
its own, which is dropped at its end; what it assigned to variables outside it stays. -/
mutual
def check (e : Env) : Statement → Option Env
  | declaration line => (e.declareLine .inspection line.text).result?
  | assignment line => (e.assignLine line.text).result?
  | call line => if (e.checkCall line.text).isOk then some e else none
  | leave _ => some e
  | block header body =>
    match Condition.operands? (Condition.text header.text) with
    | none => none
    | some os =>
      if (e.checkOperands os).isOk then (checkAll e.push body).map Env.leave else none

def checkAll (e : Env) : List Statement → Option Env
  | [] => some e
  | s :: rest => (check e s).bind fun e => checkAll e rest
end

end Statement

/-! ## Programs -/

/-- The signature that a header announces, if its name is free to use and its parameters
can be read. -/
def Line.signature? (header : Line .methodDeclaration) : Option Signature :=
  (Header.parse? header.text).bind fun h => h.signature.toOption

/-- The effect of a global line on the global variables. -/
def Item.declareIn (e : Env) : Item → Outcome Fault Env
  | declaration line => e.declareLine .survey line.text
  | assignment line => e.assignLine line.text
  | method _ _ => .ok e

def Item.header? : Item → Option (Line .methodDeclaration)
  | method header _ => some header
  | _ => none

namespace Program

/-- The global variables, when the global lines are taken in order. -/
def globals? (p : Program) : Option Frame :=
  (Outcome.each Item.declareIn Env.empty p.items).result?.map (·.globals)

def signatures? (p : Program) : Option (List Signature) :=
  (p.items.filterMap Item.header?).mapM Line.signature?

/-- What every method of the program can rely on.  No two methods share a name. -/
def environment? (p : Program) : Option Env :=
  p.globals?.bind fun globals => p.signatures?.bind fun ss =>
    -- An environment holds the methods from the last to the first.
    if (ss.map (·.name)).Nodup then some ⟨ss.reverse, globals, []⟩ else none

end Program

/-- A method is legal if its body is, from the environment `e` of the program and its
parameters on, and ends in a return. -/
def Item.isLegal (e : Env) : Item → Bool
  | method header body =>
    match header.signature? with
    | none => false
    | some s =>
      decide (s.parameters.map (·.name)).Nodup &&
        (Statement.checkAll { e with locals := [Frame.ofParameters s.parameters] } body).isSome &&
        body.getLast?.any Statement.isReturn
  | _ => true

def Program.isLegal (p : Program) : Bool :=
  p.environment?.any fun e => p.items.all (Item.isLegal e)

/-! ## The lines of a tree are significant -/

namespace Line

variable {c : Category}

theorem isSkippable_eq_false (line : Line c) (hc : c ≠ .illegalComment) (hu : c ≠ .unknown) :
    isSkippable line.text = false := by
  have ha := Category.admits_of_of_eq line.of_text hc hu
  have hcomment := Category.isComment_eq_false_of_admits ha
  have hblank : isBlankText line.text = false := by
    cases hb : isBlankText line.text with
    | false => rfl
    | true =>
        have hlast := Category.lastMark_of_admits ha
        have hnone : lastMark line.text = none := by
          rw [lastMark, List.find?_eq_none]
          intro a ha'
          have := List.all_eq_true.mp hb a (List.mem_reverse.mp ha')
          simp [this]
        rw [hnone] at hlast
        cases c <;> simp [Category.lastMark] at hlast hc hu
  rw [isSkippable, hblank, hcomment]
  rfl

end Line

/-- A list of lines that are significant as they stand. -/
def AllSignificant (lines : List Text) : Prop :=
  ∀ line ∈ lines, isSkippable line = false ∧ trim line = line

theorem significant_eq_self {lines : List Text} (h : AllSignificant lines) :
    significant lines = lines := by
  induction lines with
  | nil => rfl
  | cons line lines ih =>
      obtain ⟨hs, ht⟩ := h line List.mem_cons_self
      rw [significant, List.filterMap_cons_some (b := line) (by simp [hs, ht])]
      exact congrArg _ (ih fun l hl => h l (List.mem_cons_of_mem _ hl))

end SJava
