/-
The lines of a source text.  A line ends at a line feed, and a carriage return right
before that line feed belongs to the ending; any other carriage return is part of the
line.
-/
import SJava.Text.Basic

namespace SJava
namespace Text

/-- Puts a character in front of the first line, which is a new one if there is none. -/
def consFirst (c : Char) : List Text → List Text
  | [] => [[c]]
  | l :: ls => (c :: l) :: ls

/-- The lines of a text without their endings.  After the last ending there is a further
line only if some text is left for it. -/
def lines : Text → List Text
  | [] => []
  | '\n' :: s => [] :: lines s
  | '\r' :: '\n' :: s => [] :: lines s
  | c :: s => consFirst c (lines s)

/-- The `n`-th line of a text, counted from one. -/
def line? (s : Text) (n : Nat) : Option Text :=
  if n = 0 then none else (lines s)[n - 1]?

/-- The number of bytes of a text in UTF-8. -/
def utf8Length (s : Text) : Nat := s.foldr (fun c n => c.utf8Size + n) 0

@[simp] theorem lines_nil : lines [] = [] := by rw [lines]

@[simp] theorem lines_cons_lineFeed (s : Text) : lines ('\n' :: s) = [] :: lines s := by rw [lines]

/-- A carriage return before a line feed is part of the same ending. -/
@[simp] theorem lines_cons_return_lineFeed (s : Text) :
    lines ('\r' :: '\n' :: s) = [] :: lines s := by rw [lines]

/-- Any other character belongs to a line. -/
theorem lines_cons {c : Char} {s : Text} (hc : c ≠ '\n') (h : c = '\r' → s.head? ≠ some '\n') :
    lines (c :: s) = consFirst c (lines s) := by
  rw [lines]
  · exact hc
  · rintro t rfl rfl
    exact h rfl rfl

theorem line?_zero (s : Text) : line? s 0 = none := rfl

theorem line?_succ (s : Text) (n : Nat) : line? s (n + 1) = (lines s)[n]? := rfl

end Text
end SJava
