/-
Putting items together by commas, and cutting the list apart again.

Which commas separate two items is said here without the scan that looks for them: a comma stands
outside quotes if the text before it closes every quote that it opens (`Text.OuterComma`).  The scan
keeps the one quote that is open (`Text.openAfter`), and cuts at these commas and at no others
(`Text.cutItems_eq_cutAt`).  Hence the items of a list are those that were put together, whatever
white space was put around them, and no other text is lost than this white space and the commas.
-/
import SJava.Proofs.Phrases

namespace SJava
namespace Text

/-! ## Quotes -/

/-- Every quote that the text opens is closed, by the next quote of the same kind. -/
inductive QuotesClosed : Text → Prop where
  | nil : QuotesClosed []
  | plain {c : Char} {s : Text} : c ≠ '"' → c ≠ '\'' → QuotesClosed s → QuotesClosed (c :: s)
  | quoted {q : Char} {u s : Text} :
      q = '"' ∨ q = '\'' → q ∉ u → QuotesClosed s → QuotesClosed (q :: (u ++ q :: s))

/-- The quote that is open after a text, when `quote` was open before it. -/
def openAfter (quote : Option Char) (s : Text) : Option Char := s.foldl quoteAfter quote

theorem openAfter_cons (quote : Option Char) (c : Char) (s : Text) :
    openAfter quote (c :: s) = openAfter (quoteAfter quote c) s := rfl

theorem openAfter_of_not_mem {q : Char} {u : Text} (h : q ∉ u) :
    openAfter (some q) u = some q := by
  induction u with
  | nil => rfl
  | cons c u ih =>
      rw [List.mem_cons, not_or] at h
      rw [openAfter_cons, quoteAfter, if_neg (Ne.symm h.1), ih h.2]

theorem openAfter_append_quote {q : Char} {u : Text} (h : q ∉ u) (s : Text) :
    openAfter (some q) (u ++ q :: s) = openAfter none s := by
  have hu : u.foldl quoteAfter (some q) = some q := openAfter_of_not_mem h
  rw [openAfter, List.foldl_append, hu, List.foldl_cons, quoteAfter, if_pos rfl]
  rfl

theorem quoteAfter_none_of_quote {q : Char} (h : q = '"' ∨ q = '\'') :
    quoteAfter none q = some q := if_pos h

theorem quoteAfter_none_of_plain {c : Char} (hdouble : c ≠ '"') (hsingle : c ≠ '\'') :
    quoteAfter none c = none := if_neg (not_or.mpr ⟨hdouble, hsingle⟩)

theorem QuotesClosed.openAfter_eq_none {s : Text} (h : QuotesClosed s) :
    openAfter none s = none := by
  induction h with
  | nil => rfl
  | plain hdouble hsingle _ ih => rwa [openAfter_cons, quoteAfter_none_of_plain hdouble hsingle]
  | quoted hq hu _ ih =>
      rwa [openAfter_cons, quoteAfter_none_of_quote hq, openAfter_append_quote hu]

/-- The induction is on the length, as a quote is closed somewhere further on. -/
theorem QuotesClosed.of_openAfter {s : Text} (h : openAfter none s = none) : QuotesClosed s := by
  match s with
  | [] => exact .nil
  | c :: s =>
      rw [openAfter_cons] at h
      by_cases hc : c = '"' ∨ c = '\''
      · rw [quoteAfter_none_of_quote hc] at h
        have hmem : c ∈ s := by
          by_contra hs
          rw [openAfter_of_not_mem hs] at h
          exact absurd h (Option.some_ne_none c)
        obtain ⟨u, r, rfl, hu⟩ := List.eq_append_cons_of_mem hmem
        rw [openAfter_append_quote hu] at h
        have hshorter : r.length < (c :: (u ++ c :: r)).length := by
          simp only [List.length_cons, List.length_append]
          omega
        exact .quoted hc hu (of_openAfter h)
      · obtain ⟨hdouble, hsingle⟩ := not_or.mp hc
        rw [quoteAfter_none_of_plain hdouble hsingle] at h
        exact .plain hdouble hsingle (of_openAfter h)
termination_by s.length

theorem quotesClosed_iff {s : Text} : QuotesClosed s ↔ openAfter none s = none :=
  ⟨QuotesClosed.openAfter_eq_none, QuotesClosed.of_openAfter⟩

instance (s : Text) : Decidable (QuotesClosed s) := decidable_of_iff _ quotesClosed_iff.symm

/-! ## Commas outside quotes -/

/-- At position `i` there is a comma, and every quote before it is closed before it. -/
def OuterComma (s : Text) (i : Nat) : Prop := s[i]? = some ',' ∧ QuotesClosed (s.take i)

instance (s : Text) (i : Nat) : Decidable (OuterComma s i) :=
  inferInstanceAs (Decidable (_ ∧ _))

/-- The positions of the commas outside quotes, from left to right. -/
def outerCommas (s : Text) : List Nat := (List.range s.length).filter fun i => OuterComma s i

/-- The positions of the commas outside quotes, when `quote` is open before the text. -/
def commasAfter (quote : Option Char) (s : Text) : List Nat :=
  (List.range s.length).filter fun i => s[i]? = some ',' ∧ openAfter quote (s.take i) = none

theorem outerCommas_eq (s : Text) : outerCommas s = commasAfter none s := by
  simp only [outerCommas, commasAfter, OuterComma, quotesClosed_iff]

theorem commasAfter_cons (quote : Option Char) (c : Char) (s : Text) :
    commasAfter quote (c :: s) =
      (if quote = none ∧ c = ',' then [0] else []) ++
        (commasAfter (quoteAfter quote c) s).map (· + 1) := by
  have hhead : decide ((c :: s)[0]? = some ',' ∧ openAfter quote ((c :: s).take 0) = none) =
      decide (quote = none ∧ c = ',') := by
    simp [openAfter, and_comm]
  rw [commasAfter, List.length_cons, List.range_succ_eq_map, List.filter_cons, hhead,
    List.filter_map]
  by_cases h : quote = none ∧ c = ','
  · rw [if_pos (decide_eq_true h), if_pos h]
    rfl
  · rw [if_neg (by simpa using h), if_neg h]
    rfl

/-- The texts between the given positions of `s`, from `start` on. -/
def cutAt (s : Text) : Nat → List Nat → List Text
  | start, [] => [s.drop start]
  | start, i :: is => (s.take i).drop start :: cutAt s (i + 1) is

theorem length_cutAt (s : Text) (start : Nat) (is : List Nat) :
    (cutAt s start is).length = is.length + 1 := by
  induction is generalizing start with
  | nil => rfl
  | cons i is ih => rw [cutAt, List.length_cons, ih, List.length_cons]

theorem cutAt_cons_succ (c : Char) (s : Text) (start : Nat) (is : List Nat) :
    cutAt (c :: s) (start + 1) (is.map (· + 1)) = cutAt s start is := by
  induction is generalizing start with
  | nil => rfl
  | cons i is ih => rw [List.map_cons, cutAt, cutAt, ih, List.take_succ_cons, List.drop_succ_cons]

theorem cutAt_cons_zero (c : Char) (s : Text) (is : List Nat) :
    cutAt (c :: s) 0 (is.map (· + 1)) = (cutAt s 0 is).modifyHead (c :: ·) := by
  cases is with
  | nil => rfl
  | cons i is =>
      rw [List.map_cons, cutAt, cutAt_cons_succ, cutAt]
      rfl

/-- The scan cuts at the commas outside quotes. -/
theorem cutItems_eq_cutAt (quote : Option Char) (s : Text) :
    cutItems quote s = cutAt s 0 (commasAfter quote s) := by
  induction s generalizing quote with
  | nil => rfl
  | cons c s ih =>
      rw [cutItems, commasAfter_cons]
      split
      · next h =>
        obtain ⟨rfl, rfl⟩ := h
        rw [ih, List.singleton_append, cutAt, cutAt_cons_succ]
        rfl
      · rw [ih, List.nil_append, cutAt_cons_zero]

theorem isItem_of_commasAfter {quote : Option Char} {s : Text} (hopen : openAfter quote s = none)
    (hcomma : commasAfter quote s = []) : isItem quote s := by
  induction s generalizing quote with
  | nil => exact Option.isNone_iff_eq_none.mpr hopen
  | cons c s ih =>
      rw [commasAfter_cons, List.append_eq_nil_iff, List.map_eq_nil_iff] at hcomma
      have hc : ¬ (quote = none ∧ c = ',') := fun h => by
        rw [if_pos h] at hcomma
        exact absurd hcomma.1 (List.cons_ne_nil 0 [])
      exact isItem_cons.mpr ⟨hc, ih hopen hcomma.2⟩

/-! ## Items and lists -/

/-- A text that can be told from its neighbours in a list: no white space around it, every quote
closed, no comma outside quotes. -/
structure IsListItem (v : Text) : Prop where
  trim_eq : trim v = v
  quotesClosed : QuotesClosed v
  noComma : outerCommas v = []

instance (v : Text) : Decidable (IsListItem v) :=
  decidable_of_iff (trim v = v ∧ QuotesClosed v ∧ outerCommas v = [])
    ⟨fun ⟨htrim, hclosed, hcomma⟩ => ⟨htrim, hclosed, hcomma⟩,
      fun h => ⟨h.trim_eq, h.quotesClosed, h.noComma⟩⟩

theorem IsListItem.isItem {v : Text} (h : IsListItem v) : isItem none v :=
  isItem_of_commasAfter h.quotesClosed.openAfter_eq_none (outerCommas_eq v ▸ h.noComma)

/-- The text `w` is `v` with white space around it. -/
def Padded (v w : Text) : Prop :=
  ∃ left right, isBlankText left ∧ isBlankText right ∧ w = left ++ (v ++ right)

theorem isItem_append {quote : Option Char} {s t : Text} (hs : isItem quote s)
    (ht : isItem none t) : isItem quote (s ++ t) := by
  induction s generalizing quote with
  | nil =>
      obtain rfl : quote = none := by simpa [isItem] using hs
      exact ht
  | cons c s ih =>
      obtain ⟨hc, hs⟩ := isItem_cons.mp hs
      exact isItem_cons.mpr ⟨hc, ih hs⟩

theorem isItem_of_isBlankText {g : Text} (hg : isBlankText g) : isItem none g :=
  isItem_of_forall fun c hc => by
    refine ⟨?_, ?_, ?_⟩ <;> rintro rfl <;> exact not_mem_of_isBlankText hg (by decide) hc

theorem Padded.isItem {v w : Text} (h : Padded v w) (hv : IsListItem v) : isItem none w := by
  obtain ⟨left, right, hleft, hright, rfl⟩ := h
  exact isItem_append (isItem_of_isBlankText hleft)
    (isItem_append hv.isItem (isItem_of_isBlankText hright))

theorem Padded.trim_eq {v w : Text} (h : Padded v w) : trim w = trim v := by
  obtain ⟨left, right, hleft, hright, rfl⟩ := h
  rw [trim_indent hleft, trim_append hright]

theorem map_trim_of_padded {vs ws : List Text} (h : List.Forall₂ Padded vs ws)
    (hvs : ∀ v ∈ vs, IsListItem v) : ws.map trim = vs := by
  induction h with
  | nil => rfl
  | cons hpad _ ih =>
      rw [List.forall_mem_cons] at hvs
      rw [List.map_cons, hpad.trim_eq, hvs.1.trim_eq, ih hvs.2]

theorem isItem_of_padded {vs ws : List Text} (h : List.Forall₂ Padded vs ws)
    (hvs : ∀ v ∈ vs, IsListItem v) : ∀ w ∈ ws, isItem none w := by
  induction h with
  | nil => simp
  | cons hpad _ ih =>
      rw [List.forall_mem_cons] at hvs ⊢
      exact ⟨hpad.isItem hvs.1, ih hvs.2⟩

/-- Two items have a comma between them, and a single one that is not empty has a mark. -/
theorem isBlankText_eq_false_of_padded {vs ws : List Text} (h : List.Forall₂ Padded vs ws)
    (hvs : ∀ v ∈ vs, IsListItem v) (hne : vs ≠ []) (hone : vs ≠ [[]]) :
    isBlankText ([','].intercalate ws) = false := by
  cases h with
  | nil => exact absurd rfl hne
  | @cons v w vs ws hpad hrest =>
      cases hrest with
      | nil =>
          have hv : isBlankText v = false := by
            refine isBlankText_eq_false_of_trim ?_ (hvs v List.mem_cons_self).trim_eq
            rintro rfl
            exact hone rfl
          obtain ⟨left, right, _, _, rfl⟩ := hpad
          rw [isBlankText] at hv
          rw [List.intercalate_singleton, isBlankText, List.all_append, List.all_append, hv,
            Bool.false_and, Bool.and_false]
      | @cons v' w' vs ws hpad' hrest =>
          rw [Bool.eq_false_iff]
          intro hblank
          refine not_mem_of_isBlankText hblank (c := ',') (by decide) ?_
          rw [List.intercalate_cons_cons]
          simp

theorem items_of_padded {vs ws : List Text} (hvs : ∀ v ∈ vs, IsListItem v) (hone : vs ≠ [[]])
    (hpad : List.Forall₂ Padded vs ws) : items ([','].intercalate ws) = vs := by
  by_cases hne : vs = []
  · subst hne
    cases hpad
    rfl
  · rw [items_intercalate_of_not_blank (isItem_of_padded hpad hvs)
      (isBlankText_eq_false_of_padded hpad hvs hne hone), map_trim_of_padded hpad hvs]

theorem cutAt_outerCommas (s : Text) : cutAt s 0 (outerCommas s) = cutItems none s := by
  rw [outerCommas_eq, cutItems_eq_cutAt]

/-- Cutting inverts joining.  Items that are put together by commas, with any white space around
them, are found again; the empty text as the only item is left out, as nothing tells it from the
empty list.  A list that is not blank has one item more than it has commas outside quotes: the
texts between these commas, without the white space around them, and with this white space they
make up the list. -/
theorem items_inverts_joining :
    (∀ vs ws : List Text, (∀ v ∈ vs, IsListItem v) → vs ≠ [[]] → List.Forall₂ Padded vs ws →
      items ([','].intercalate ws) = vs) ∧
    ∀ s : Text, isBlankText s = false →
      (items s).length = (outerCommas s).length + 1 ∧ (∀ v ∈ items s, trim v = v) ∧
        items s = (cutAt s 0 (outerCommas s)).map trim ∧
          [','].intercalate (cutAt s 0 (outerCommas s)) = s := by
  refine ⟨fun vs ws hvs hone hpad => items_of_padded hvs hone hpad, fun s hs => ?_⟩
  have hitems : items s = (cutAt s 0 (outerCommas s)).map trim := by
    rw [items, hs, if_neg Bool.false_ne_true, cutAt_outerCommas]
  refine ⟨?_, ?_, hitems, ?_⟩
  · rw [hitems, List.length_map, length_cutAt]
  · intro v hv
    rw [hitems] at hv
    obtain ⟨p, _, rfl⟩ := List.mem_map.mp hv
    exact trim_trim p
  · rw [cutAt_outerCommas, intercalate_cutItems]

/-- An item with a comma and a quote of the other kind between its quotes, between two slots of
which the last is empty; and a list with a quote that is never closed. -/
theorem items_of_sampleLists :
    items "a , \"x,'y\",\t".toList = ["a".toList, "\"x,'y\"".toList, []] ∧
      (items ", é, 'b,c".toList).length = (outerCommas ", é, 'b,c".toList).length + 1 := by
  constructor
  · refine items_inverts_joining.1 ["a".toList, "\"x,'y\"".toList, []]
      ["a ".toList, " \"x,'y\"".toList, "\t".toList] (by decide) (by decide) ?_
    exact .cons ⟨[], [' '], by decide, by decide, rfl⟩
      (.cons ⟨[' '], [], by decide, by decide, rfl⟩
        (.cons ⟨[], ['\t'], by decide, by decide, rfl⟩ .nil))
  · exact (items_inverts_joining.2 _ (by decide)).1

end Text
end SJava
