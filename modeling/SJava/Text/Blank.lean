/-
White space: the characters that separate words, surround tokens and make up an empty
line.  The table is the Unicode property `White_Space`, which reaches further than the
four characters that `Char.isWhitespace` knows.
-/
import SJava.Text.Basic

namespace SJava
namespace Text

def blankRanges : List (Nat × Nat) :=
  [(0x9, 0xd), (0x20, 0x20), (0x85, 0x85), (0xa0, 0xa0), (0x1680, 0x1680), (0x2000, 0x200a),
   (0x2028, 0x2029), (0x202f, 0x202f), (0x205f, 0x205f), (0x3000, 0x3000)]

/-- The Unicode property `White_Space`. -/
def isBlank (c : Char) : Bool := inRanges blankRanges c

/-- A text with nothing but white space in it. -/
def isBlankText (s : Text) : Bool := s.all isBlank

def trimStart (s : Text) : Text := s.dropWhile isBlank

def trimEnd (s : Text) : Text := (s.reverse.dropWhile isBlank).reverse

/-- A text without the white space at either end. -/
def trim (s : Text) : Text := trimEnd (trimStart s)

/-- What follows the white space at the start of a text, of which there must be some. -/
def afterGap? : Text → Option Text
  | [] => none
  | c :: s => if isBlank c then some (trimStart s) else none

/-- The words of a text: its longest pieces without white space, in order. -/
def words (s : Text) : List Text := (s.splitOnP isBlank).filter fun w => !w.isEmpty

/-- White space and then a text within one line: the text is not empty, holds no line feed
and runs to the end.  It may itself begin with white space, so only a line feed decides
where it starts. -/
def isBlankThenLine : Text → Bool
  | [] => false
  | c :: s => (c :: s).all (· != '\n') || (isBlank c && isBlankThenLine s)

/-! ## What is cut off, and what stays -/

/-- What `trimStart` cuts off is white space. -/
theorem exists_append_trimStart (s : Text) : ∃ g, isBlankText g ∧ s = g ++ trimStart s :=
  ⟨s.takeWhile isBlank, by simp [isBlankText, List.all_takeWhile],
    (List.takeWhile_append_dropWhile).symm⟩

/-- What `trimEnd` cuts off is white space. -/
theorem exists_trimEnd_append (s : Text) : ∃ g, isBlankText g ∧ s = trimEnd s ++ g := by
  obtain ⟨g, hg, h⟩ := exists_append_trimStart s.reverse
  refine ⟨g.reverse, by simpa [isBlankText] using hg, ?_⟩
  have hr := congrArg List.reverse h
  rwa [List.reverse_reverse, List.reverse_append] at hr

theorem trimStart_append {g s : Text} (hg : isBlankText g) : trimStart (g ++ s) = trimStart s := by
  induction g with
  | nil => rfl
  | cons c g ih =>
    simp only [isBlankText, List.all_cons, Bool.and_eq_true] at hg
    simp only [trimStart, List.cons_append, List.dropWhile_cons, hg.1, if_true]
    exact ih hg.2

theorem trimStart_cons {c : Char} (hc : isBlank c = false) (s : Text) :
    trimStart (c :: s) = c :: s := by
  simp [trimStart, hc]

theorem trimEnd_append {g s : Text} (hg : isBlankText g) : trimEnd (s ++ g) = trimEnd s := by
  have h : isBlankText g.reverse := by simpa [isBlankText] using hg
  have hs : trimStart (g.reverse ++ s.reverse) = trimStart s.reverse := trimStart_append h
  simpa [trimEnd, trimStart] using congrArg List.reverse hs

theorem trimEnd_concat {c : Char} (hc : isBlank c = false) (s : Text) :
    trimEnd (s ++ [c]) = s ++ [c] := by
  simp [trimEnd, hc]

/-- A gap is white space, at least one character of it, up to a text that begins with
none. -/
theorem afterGap?_append {c : Char} {g s : Text} (hc : isBlank c) (hg : isBlankText g) :
    afterGap? (c :: g ++ s) = some (trimStart s) := by
  simp [afterGap?, hc, trimStart_append hg]

/-- A mark, and white space before it. -/
theorem after?_trimStart_eq_some_iff {c : Char} (hc : isBlank c = false) {s r : Text} :
    after? [c] (trimStart s) = some r ↔ ∃ g, isBlankText g ∧ s = g ++ c :: r := by
  rw [after?_eq_some_iff]
  constructor
  · intro h
    obtain ⟨g, hg, hs⟩ := exists_append_trimStart s
    exact ⟨g, hg, hs.trans (congrArg (g ++ ·) h)⟩
  · intro ⟨g, hg, hs⟩
    rw [hs, trimStart_append hg]
    exact trimStart_cons hc r

/-- A mark, and white space after it. -/
theorem before?_trimEnd_eq_some_iff {c : Char} (hc : isBlank c = false) {s r : Text} :
    before? c (trimEnd s) = some r ↔ ∃ g, isBlankText g ∧ s = r ++ c :: g := by
  rw [before?_eq_some_iff]
  constructor
  · intro h
    obtain ⟨g, hg, hs⟩ := exists_trimEnd_append s
    refine ⟨g, hg, ?_⟩
    rw [hs, h, List.append_assoc, List.singleton_append]
  · intro ⟨g, hg, hs⟩
    rw [hs, ← List.singleton_append, ← List.append_assoc, trimEnd_append hg]
    exact trimEnd_concat hc r

/-! ## Words -/

theorem words_nil : words [] = [] := rfl

/-- White space divides a text into parts with words of their own. -/
theorem words_append_cons {c : Char} (hc : isBlank c) (s t : Text) :
    words (s ++ c :: t) = words s ++ words t := by
  simp only [words, List.splitOnP_append_cons s t hc, List.filter_append]

/-- A text without white space is one word. -/
theorem words_eq_singleton {s : Text} (hs : s ≠ []) (h : ∀ c ∈ s, isBlank c = false) :
    words s = [s] := by
  rw [words, List.splitOnP_eq_singleton h]
  simp [hs]

/-! ## The table -/

theorem isBlank_of_isWhitespace {c : Char} (h : c.isWhitespace) : isBlank c := by
  simp only [Char.isWhitespace, Bool.or_eq_true, decide_eq_true_eq] at h
  rcases h with ((rfl | rfl) | rfl) | rfl <;> decide

end Text
end SJava
