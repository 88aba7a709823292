/-
Lists of items separated by commas, as between the parentheses of a method.  A comma
between quotes belongs to its item; a quote is closed by the next quote of the same kind.
-/
import SJava.Text.Blank

namespace SJava
namespace Text

/-- The quote that is open after the character `c`, when `quote` was open before it. -/
def quoteAfter (quote : Option Char) (c : Char) : Option Char :=
  match quote with
  | none => if c = '"' ∨ c = '\'' then some c else none
  | some q => if c = q then none else some q

/-- Cuts a text at the commas that stand outside quotes, when `quote` is open at its
start. -/
def cutItems : Option Char → Text → List Text
  | _, [] => [[]]
  | quote, c :: s =>
    if quote = none ∧ c = ',' then [] :: cutItems none s
    else (cutItems (quoteAfter quote c) s).modifyHead (c :: ·)

/-- The items of a list without the white space around them.  A blank text is the empty
list; in any other text every comma outside quotes separates two items, which may be
empty. -/
def items (s : Text) : List Text :=
  if isBlankText s then [] else (cutItems none s).map trim

/-- There is always a piece, if only an empty one. -/
theorem cutItems_ne_nil (quote : Option Char) (s : Text) : cutItems quote s ≠ [] := by
  induction s generalizing quote with
  | nil => simp [cutItems]
  | cons c s ih =>
    rw [cutItems]
    split
    · simp
    · obtain ⟨p, ps, h⟩ := List.exists_cons_of_ne_nil (ih (quoteAfter quote c))
      simp [h]

/-- Nothing but the commas is lost between the pieces. -/
theorem intercalate_cutItems (quote : Option Char) (s : Text) :
    [','].intercalate (cutItems quote s) = s := by
  induction s generalizing quote with
  | nil => rfl
  | cons c s ih =>
    rw [cutItems]
    split
    · next h =>
      obtain ⟨p, ps, hp⟩ := List.exists_cons_of_ne_nil (cutItems_ne_nil none s)
      have hs := ih none
      rw [hp] at hs ⊢
      rw [List.intercalate_cons_cons, hs, h.2]
      rfl
    · obtain ⟨p, ps, hp⟩ := List.exists_cons_of_ne_nil (cutItems_ne_nil (quoteAfter quote c) s)
      have hs := ih (quoteAfter quote c)
      rw [hp] at hs ⊢
      rw [← hs]
      cases ps <;> simp [List.intercalate_cons_cons]

theorem items_of_isBlankText {s : Text} (h : isBlankText s) : items s = [] := by
  simp [items, h]

end Text
end SJava
