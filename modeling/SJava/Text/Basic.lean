/-
Text is a list of characters, so that every rule of the language is a statement about
characters and their order.  This file holds the type, membership of a character in a
table of code points, and the few ways in which text is taken apart from its two ends.
-/

namespace SJava

/-- A text, character by character. -/
abbrev Text := List Char

namespace Text

/-- Whether the code point of `c` lies in one of the given ranges, both ends included. -/
def inRanges (ranges : List (Nat × Nat)) (c : Char) : Bool :=
  ranges.any fun r => r.1 ≤ c.toNat && c.toNat ≤ r.2

/-- What follows the word `w` at the start of a text that begins with it. -/
def after? : Text → Text → Option Text
  | [], s => some s
  | _ :: _, [] => none
  | c :: w, d :: s => if c = d then after? w s else none

/-- What precedes the character `c` at the end of a text that ends in it. -/
def before? (c : Char) (s : Text) : Option Text :=
  match s.reverse with
  | [] => none
  | d :: r => if d = c then some r.reverse else none

/-- The text is the word and what follows it, so nothing is lost. -/
theorem after?_eq_some_iff {w s r : Text} : after? w s = some r ↔ s = w ++ r := by
  induction w generalizing s with
  | nil => simp [after?]
  | cons c w ih =>
    cases s with
    | nil => simp [after?]
    | cons d s =>
      by_cases h : c = d
      · simp [after?, h, ih]
      · simp [after?, h, Ne.symm h]

theorem before?_eq_some_iff {c : Char} {s r : Text} : before? c s = some r ↔ s = r ++ [c] := by
  have hs : s = r ++ [c] ↔ s.reverse = c :: r.reverse := by
    rw [← List.reverse_inj, List.reverse_append, List.reverse_singleton, List.singleton_append]
  rw [hs, before?]
  cases s.reverse with
  | nil => simp
  | cons d t =>
    by_cases h : d = c
    · simp [h, List.reverse_eq_iff]
    · simp [h]

end Text
end SJava
