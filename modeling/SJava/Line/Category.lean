/-
The categories of lines.  Each category but two has a grammar of its own, and a line
belongs to the first category whose grammar it satisfies.
-/
import SJava.Line.Call
import SJava.Line.Clause
import SJava.Line.Condition

namespace SJava

open Text

inductive Category where
  | illegalComment
  | variableDeclaration
  | methodDeclaration
  | methodCall
  | conditionalBlockStart
  | blockEnd
  | variableAssignment
  | returnStatement
  | unknown
  deriving DecidableEq, Repr

/-- A comment that starts in the very first column. -/
def isComment (line : Text) : Bool := (after? "//".toList line).isSome

/-- Lines that say nothing: blank ones, and comments. -/
def isSkippable (line : Text) : Bool := isBlankText line || isComment line

/-- A closing brace, alone on its line. -/
def isBlockEnd (line : Text) : Bool := trim line == ['\x7d']

/-- The word `return` and a semicolon. -/
def isReturn (line : Text) : Bool :=
  (after? "return".toList (trim line)).any fun s => trimStart s == [';']

namespace Category

/-- Every category, in the order in which lists of categories are given. -/
def all : List Category :=
  [illegalComment, variableDeclaration, methodDeclaration, methodCall, conditionalBlockStart,
    blockEnd, variableAssignment, returnStatement, unknown]

/-- Whether a line satisfies the grammar of a category.  Comments and unknown lines have
none. -/
def admits (category : Category) (line : Text) : Bool :=
  match category with
  | illegalComment => false
  | variableDeclaration => Declaration.isLine line
  | methodDeclaration => (Header.parse? line).isSome
  | methodCall => (Call.parse? line).isSome
  | conditionalBlockStart => Condition.isLine line
  | blockEnd => isBlockEnd line
  | variableAssignment => Assignment.isLine line
  | returnStatement => isReturn line
  | unknown => false

/-- The categories with a grammar, in the order in which a line is tried against them. -/
def byPriority : List Category :=
  [methodDeclaration, variableDeclaration, conditionalBlockStart, methodCall, blockEnd,
    variableAssignment, returnStatement]

/-- The category of a line.  A comment is illegal here: one that may stand is skipped
before its line is trimmed and looked at. -/
def of (line : Text) : Category :=
  if isComment line then illegalComment
  else (byPriority.find? fun c => c.admits line).getD unknown

end Category
end SJava
