/-
The header of a method: the word `void`, a name, parameters between parentheses and an
opening brace.  Parameters are read on their own, so that the first faulty one decides the
fault of a header.
-/
import SJava.Env.Symbol
import SJava.Fault
import SJava.Name
import SJava.Text.Blank
import SJava.Text.Items

namespace SJava

open Text

/-- A header with its parameters as they are written. -/
structure Header where
  name : Text
  parameters : Text
  deriving DecidableEq, Repr

/-- What precedes the end of a line that opens a block: a closing parenthesis, an opening
brace, and white space after each. -/
def beforeBlock? (s : Text) : Option Text :=
  (before? '\x7b' (trimEnd s)).bind fun s => before? ')' (trimEnd s)

/-- What follows an opening parenthesis and the white space before it. -/
def afterParenthesis? (s : Text) : Option Text := after? ['('] (trimStart s)

theorem afterParenthesis?_eq_some_iff {s r : Text} :
    afterParenthesis? s = some r ↔ ∃ g, isBlankText g ∧ s = g ++ '(' :: r :=
  after?_trimStart_eq_some_iff (by decide)

theorem beforeBlock?_eq_some_iff {s r : Text} :
    beforeBlock? s = some r ↔
      ∃ g g', isBlankText g ∧ isBlankText g' ∧ s = r ++ ')' :: (g ++ '\x7b' :: g') := by
  rw [beforeBlock?, Option.bind_eq_some_iff]
  constructor
  · intro ⟨t, ht, hr⟩
    obtain ⟨g', hg', hs⟩ := (before?_trimEnd_eq_some_iff (by decide)).mp ht
    obtain ⟨g, hg, hsr⟩ := (before?_trimEnd_eq_some_iff (by decide)).mp hr
    refine ⟨g, g', hg, hg', ?_⟩
    rw [hs, hsr, List.append_assoc, List.cons_append]
  · intro ⟨g, g', hg, hg', hs⟩
    refine ⟨r ++ ')' :: g, ?_, ?_⟩
    · refine (before?_trimEnd_eq_some_iff (by decide)).mpr ⟨g', hg', ?_⟩
      rw [hs, List.append_assoc, List.cons_append]
    · exact (before?_trimEnd_eq_some_iff (by decide)).mpr ⟨g, hg, rfl⟩

namespace Header

def parse? (line : Text) : Option Header := do
  let s ← (after? "void".toList line).bind afterGap?
  let name := s.takeWhile isWord
  let s ← afterParenthesis? (s.dropWhile isWord)
  let parameters ← beforeBlock? s
  if Name.isMethod name && !parameters.contains '\n' then some ⟨name, parameters⟩ else none

end Header

namespace Parameter

/-- A parameter from the words of its type and its name. -/
def ofWords (isFinal : Bool) (ty name : Text) : Except Fault Parameter :=
  match Ty.parse ty with
  | .error fault => .error fault
  | .ok t =>
    if Name.isReserved name then .error (.reservedWordMisuse name)
    else if Name.isMethod name then .ok ⟨name, t, isFinal⟩
    else .error (.invalidParameterName name)

/-- Reads an optional `final`, a type and a name. -/
def parse (s : Text) : Except Fault Parameter :=
  match words s with
  | [ty, name] =>
    if ty = "final".toList then .error (.invalidParameter s) else ofWords false ty name
  | [modifier, ty, name] =>
    if modifier = "final".toList then ofWords true ty name else .error (.invalidParameter s)
  | _ => .error (.invalidParameter s)

end Parameter

/-- The signature that a header announces. -/
def Header.signature (h : Header) : Except Fault Signature :=
  if Name.isReserved h.name then .error (.reservedWordMisuse h.name)
  else ((items h.parameters).mapM Parameter.parse).map fun ps => ⟨h.name, ps⟩

end SJava
