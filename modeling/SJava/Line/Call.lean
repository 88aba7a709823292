/-
A method call: a name, arguments between parentheses, and a semicolon that ends the line.
The arguments reach to the first closing parenthesis, wherever it stands.
-/
import SJava.Line.Header

namespace SJava

open Text

/-- A call with its arguments as they are written. -/
structure Call where
  method : Text
  arguments : Text
  deriving DecidableEq, Repr

namespace Call

def parse? (line : Text) : Option Call := do
  let method := line.takeWhile isWord
  let s ← afterParenthesis? (line.dropWhile isWord)
  let arguments := s.takeWhile (· != ')')
  let s ← after? [')'] (s.dropWhile (· != ')'))
  if Name.isMethod method && trimStart s == [';'] then some ⟨method, arguments⟩ else none

end Call
end SJava
