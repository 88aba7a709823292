/-
The verifier walks over the lines of a program twice.  The survey keeps nothing but a
count of the blocks that are open, and handles the lines outside every block.  The
inspection keeps the frames of the open blocks, and handles each line by the rule for its
category.  The first fault ends a run; what the verifier knew by then stays, and a later
run goes on from it.
-/
import SJava.Rules.Block
import SJava.Rules.Method
import SJava.Text.Lines

namespace SJava

open Text

/-- What the inspection can do with a line. -/
inductive Rule where
  | refuseComment
  | declare
  | enterMethod
  | openBlock
  | closeBlock
  | call
  | assign
  | leave
  deriving DecidableEq, Repr

namespace Rule

/-- The rule for each category.  There is none for an unknown line. -/
def standard : Category → Option Rule
  | .illegalComment => some refuseComment
  | .variableDeclaration => some declare
  | .methodDeclaration => some enterMethod
  | .methodCall => some call
  | .conditionalBlockStart => some openBlock
  | .blockEnd => some closeBlock
  | .variableAssignment => some assign
  | .returnStatement => some leave
  | .unknown => none

/-- Handles a line.  Assignments outside every block are left to the survey. -/
def apply (rule : Rule) (afterReturn : Bool) (e : Env) (line : Text) : Outcome Fault Env :=
  match rule with
  | refuseComment => .fail e .illegalComment
  | declare => e.declareLine .inspection line
  | enterMethod => e.headerLine .inspection line
  | openBlock => e.openBlock line
  | closeBlock => e.closeBlock afterReturn
  | call => .require e (e.checkCall line) (.ok e)
  | assign => if e.isGlobal then .ok e else e.assignLine line
  | leave => .require e (e.checkReturn line) (.ok e)

end Rule

/-- The state of the verifier: what it knows, its rules, the number of the line it is at,
the blocks that the survey has counted as open, and whether the last line inspected was a
return. -/
structure Verifier where
  env : Env
  rules : Category → Option Rule
  line : Nat
  nesting : Int
  afterReturn : Bool

namespace Verifier

/-- A verifier that knows nothing yet. -/
def start : Verifier := ⟨Env.empty, Rule.standard, 0, 0, false⟩

/-- Takes over the result of a rule, whose fault is one of the present line. -/
def settle (v : Verifier) (o : Outcome Fault Env) : Outcome Diagnostic Verifier :=
  (o.map fun e => { v with env := e }).mapFailure fun fault => ⟨fault, v.line⟩

/-! ## Survey -/

/-- How a line changes the number of open blocks. -/
def nestingChange (line : Text) : Int :=
  (if Category.methodDeclaration.admits line then 1 else 0) +
    (if Category.conditionalBlockStart.admits line then 1 else 0) -
    (if Category.blockEnd.admits line then 1 else 0)

/-- Makes the method known that a line outside every block announces. -/
def surveyHeader (v : Verifier) (line : Text) : Outcome Diagnostic Verifier :=
  if Category.methodDeclaration.admits line && v.nesting == 0 then
    v.settle (v.env.headerLine .survey line)
  else .ok v

/-- Declares the variables of a line outside every block. -/
def surveyDeclaration (v : Verifier) (line : Text) : Outcome Diagnostic Verifier :=
  if Category.variableDeclaration.admits line && v.nesting == 0 then
    v.settle (v.env.declareLine .survey line)
  else .ok v

/-- Assigns the values of a line outside every block. -/
def surveyAssignment (v : Verifier) (line : Text) : Outcome Diagnostic Verifier :=
  if Category.variableAssignment.admits line && v.nesting == 0 then
    v.settle (v.env.assignLine line)
  else .ok v

/-- The survey of one line. -/
def surveyLine (v : Verifier) (raw : Text) : Outcome Diagnostic Verifier :=
  let v := { v with line := v.line + 1 }
  if isSkippable raw then .ok v
  else
    let line := trim raw
    (v.surveyHeader line).andThen fun v =>
      let v := { v with nesting := v.nesting + nestingChange line }
      (v.surveyDeclaration line).andThen fun v => v.surveyAssignment line

/-! ## Inspection -/

/-- Handles a line by a rule. -/
def applyRule (v : Verifier) (rule : Rule) (line : Text) : Outcome Diagnostic Verifier :=
  v.settle (rule.apply v.afterReturn v.env line)

/-- The inspection of one line. -/
def inspectLine (v : Verifier) (raw : Text) : Outcome Diagnostic Verifier :=
  let v := { v with line := v.line + 1 }
  if isSkippable raw then .ok v
  else
    let line := trim raw
    let category := Category.of line
    match v.rules category with
    | none => .fail v ⟨.unknownLineSyntax line, v.line⟩
    | some rule =>
      (v.applyRule rule line).andThen fun v =>
        .ok { v with afterReturn := category = .returnStatement }

/-! ## Runs -/

/-- Every block must be closed at the end of a walk over `count` lines.  The fault lies
past the last of them. -/
def checkClosed (count : Nat) (v : Verifier) : Outcome Diagnostic Verifier :=
  if v.nesting ≠ 0 ∨ !v.env.isGlobal then .fail v ⟨.unclosedScope, count + 1⟩ else .ok v

def survey (v : Verifier) (lines : List Text) : Outcome Diagnostic Verifier :=
  (Outcome.each surveyLine { v with line := 0 } lines).andThen (checkClosed lines.length)

def inspect (v : Verifier) (lines : List Text) : Outcome Diagnostic Verifier :=
  (Outcome.each inspectLine { v with line := 0, afterReturn := false } lines).andThen
    (checkClosed lines.length)

/-- Both walks over the lines of a program. -/
def run (v : Verifier) (lines : List Text) : Outcome Diagnostic Verifier :=
  (v.survey lines).andThen fun v => v.inspect lines

/-! ## Rules of a verifier -/

/-- Handles a line by the rule for a category, whatever the line is. -/
def handle? (v : Verifier) (category : Category) (line : Text) :
    Option (Outcome Diagnostic Verifier) :=
  (v.rules category).map fun rule => v.applyRule rule line

/-- Sets the rule for a category. -/
def setRule (v : Verifier) (category : Category) (rule : Rule) : Verifier :=
  { v with rules := fun c => if c = category then some rule else v.rules c }

/-- The number of categories that have a rule. -/
def ruleCount (v : Verifier) : Nat := Category.all.countP fun c => (v.rules c).isSome

end Verifier

/-- The first fault of a program given by its lines, if it has one. -/
def verify (lines : List Text) : Option Diagnostic := (Verifier.start.run lines).failure

/-- The first fault of a program given as one text, if it has one. -/
def verifySource (source : Text) : Option Diagnostic := verify (Text.lines source)

end SJava
