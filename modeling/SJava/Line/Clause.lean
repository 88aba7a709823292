/-
Declarations and assignments.  Both are lists of clauses, separated by commas and ended by
a semicolon; a declaration has a type in front of them, and in an assignment every clause
has a value.

A line is held against a grammar first, and then what it says is read off it, which never
fails.  The two differ in one point: the grammar lets a value run over several lines, and
the rule that divides a clause into its name and its value does not.  So a clause whose
value holds a line feed is a clause of the statement, and is not divided: all of it counts
as the name.
-/
import SJava.Fault
import SJava.Name
import SJava.Text.Blank

namespace SJava

open Text

/-- A name and the value given to it, if there is one. -/
structure Clause where
  name : Text
  value : Option Text
  deriving DecidableEq, Repr

namespace Clause

/-- Whether a text is a clause of a statement: a name, or a name, an equals sign and a
value. -/
def isClause (s : Text) : Bool :=
  let s := trim s
  Name.isVariable (s.takeWhile isWord) &&
    match trimStart (s.dropWhile isWord) with
    | [] => true
    | c :: rest => c == '=' && !isBlankText rest

/-- The name and the value of a clause, if the value stays within a line. -/
def initialization? (s : Text) : Option (Text × Text) :=
  (after? ['='] (trimStart (s.dropWhile isWord))).bind fun rest =>
    if Name.isVariable (s.takeWhile isWord) && isBlankThenLine rest then
      some (s.takeWhile isWord, trim rest)
    else none

/-- Divides a clause into its name and its value.  What is not divided is a name. -/
def read (s : Text) : Clause :=
  match initialization? s with
  | some (x, v) => ⟨x, some v⟩
  | none => ⟨trim s, none⟩

/-- The texts without the white space between any two of them. -/
def closeUp (p : Text) : List Text → List Text
  | [] => [p]
  | q :: ps => trimEnd p :: closeUp (trimStart q) ps

/-- The texts between commas, without the white space around the commas. -/
def pieces (s : Text) : List Text :=
  match s.splitOn ',' with
  | [] => []
  | p :: ps => closeUp p ps

/-- Reads the clauses of a text. -/
def readAll (s : Text) : List Clause := (pieces s).map read

/-- Reads the clauses of a statement up to the semicolon, which must be its only one. -/
def parseAll? (s : Text) : Option (List Clause) :=
  (before? ';' s).bind fun body =>
    if body.contains ';' || !(body.splitOn ',').all isClause then none
    else some (readAll (trim body))

/-- The first name that repeats an earlier one, when the names `seen` came before. -/
def firstRepeated (seen : List Text) : List Clause → Option Text
  | [] => none
  | c :: cs => if seen.contains c.name then some c.name else firstRepeated (c.name :: seen) cs

end Clause

/-- The words in front of the clauses of a declaration. -/
structure Declarator where
  isFinal : Bool
  ty : Ty
  deriving DecidableEq, Repr

namespace Declarator

/-- The words for types in the grammar of declarations. -/
def typeWords : List Text :=
  ["int".toList, "double".toList, "boolean".toList, "char".toList, "String".toList]

/-- The word for a type at the start of a text, and what follows it. -/
def typeWord? (s : Text) : Option (Text × Text) :=
  typeWords.findSome? fun w => (after? w s).map fun rest => (w, rest)

/-- An optional `final` and the word for a type at the start of a text, and what follows
them. -/
def words? (s : Text) : Option (Bool × Text × Text) :=
  match (after? "final".toList s).bind afterGap? with
  | some s => (typeWord? s).map fun (w, rest) => (true, w, rest)
  | none => (typeWord? s).map fun (w, rest) => (false, w, rest)

/-- Looks up the type that the word `w` names. -/
def ofWords (isFinal : Bool) (w : Text) : Except Fault Declarator :=
  (Ty.parse w).map fun t => ⟨isFinal, t⟩

end Declarator

structure Declaration where
  declarator : Declarator
  clauses : List Clause
  deriving DecidableEq, Repr

namespace Declaration

/-- Whether a line looks like a declaration: a type, white space, some text and a
semicolon. -/
def isLine (line : Text) : Bool :=
  match Declarator.words? (trimStart line) with
  | none => false
  | some (_, _, s) =>
    match before? ';' (trimEnd s) with
    | some (c :: s) => isBlank c && isBlankThenLine s
    | _ => false

/-- The words and the clauses of a line that follows the grammar of declarations. -/
def read? (line : Text) : Option (Bool × Text × List Clause) :=
  (Declarator.words? line).bind fun (isFinal, w, s) =>
    ((afterGap? s).bind Clause.parseAll?).map fun clauses => (isFinal, w, clauses)

/-- Reads a declaration.  Its type is looked up before anything is said of its clauses. -/
def parse (line : Text) : Except Fault Declaration :=
  match read? line with
  | none => .error (.declarationSyntax line)
  | some (isFinal, w, clauses) =>
    (Declarator.ofWords isFinal w).map fun declarator => ⟨declarator, clauses⟩

end Declaration

namespace Assignment

/-- Whether a line looks like an assignment: a word, an equals sign, some text and a
semicolon. -/
def isLine (line : Text) : Bool :=
  let s := trimStart line
  match trimStart (s.dropWhile isWord) with
  | [] => false
  | c :: rest =>
    !(s.takeWhile isWord).isEmpty && c == '=' &&
      (before? ';' (trimEnd rest)).any isBlankThenLine

/-- Reads the clauses of an assignment.  The line begins with the first name, and every
clause has an equals sign. -/
def parse? (line : Text) : Option (List Clause) :=
  if line.head?.any isBlank || !(line.splitOn ',').all (·.contains '=') then none
  else Clause.parseAll? line

end Assignment
end SJava
