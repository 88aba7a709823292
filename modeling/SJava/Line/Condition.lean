/-
Conditions: the word `if` or `while`, operands between parentheses joined by `&&` and
`||`, and an opening brace.  An operand is a variable, one of the two constants, or a
number.
-/
import SJava.Line.Header
import SJava.Literal

namespace SJava

open Text

/-- What a condition tests. -/
inductive Operand where
  | literal
  | name (x : Text)
  deriving DecidableEq, Repr

namespace Operand

/-- Reads an operand that has no white space around it. -/
def parse? (s : Text) : Option Operand :=
  if Literal.isBoolean s || Literal.isDouble s then some literal
  else if Name.isVariable s then some (name s)
  else none

end Operand

namespace Condition

/-- What follows the opening parenthesis of a line that begins with `if` or `while`. -/
def opening? (line : Text) : Option Text :=
  let s := trimStart line
  ((after? "if".toList s).or (after? "while".toList s)).bind afterParenthesis?

/-- Whether a line is that of a condition: the whole condition stands within one line. -/
def isLine (line : Text) : Bool :=
  ((opening? line).bind beforeBlock?).any fun s => !s.contains '\n'

/-- The condition of a line, without the white space around it.  On a line that lacks the
opening or the closing of a condition, the condition begins or ends with the line. -/
def text (line : Text) : Text :=
  let s := (opening? line).getD line
  trim ((beforeBlock? s).getD s)

/-- Cuts a text at every `&&` and `||`, of two that overlap at the first. -/
def cutOperators : Text → List Text
  | [] => [[]]
  | '&' :: '&' :: s => [] :: cutOperators s
  | '|' :: '|' :: s => [] :: cutOperators s
  | c :: s => (cutOperators s).modifyHead (c :: ·)

/-- The operands of a condition from left to right. -/
def operands? (condition : Text) : Option (List Operand) :=
  (cutOperators condition).mapM fun s => Operand.parse? (trim s)

end Condition
end SJava
