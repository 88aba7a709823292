/-
The grammars of lines against each other.

The survey asks of each grammar on its own whether it admits a line, and the inspection
takes the first grammar that does.  For headers, conditions, block ends and declarations
the two questions have the same answer (`admits_iff_of_eq`).  The first and the last
character of a line that are not white space decide nearly all of it: a block opens with a
brace, closes with a brace, and every statement ends in a semicolon.  An assignment can
only be mistaken for a declaration, and then it has no clauses that could be read
(`Declaration.parse?_eq_none`).
-/
import Mathlib.Data.List.DropRight
import SJava.Proofs.TypeWords
import SJava.Verifier

namespace SJava

open Text

namespace Text

/-- The first character that is not white space. -/
def firstMark (s : Text) : Option Char := s.find? fun c => !isBlank c

/-- The last character that is not white space. -/
def lastMark (s : Text) : Option Char := s.reverse.find? fun c => !isBlank c

theorem head?_trimStart (s : Text) : (trimStart s).head? = firstMark s := by
  induction s with
  | nil => rfl
  | cons c s ih =>
      cases hc : isBlank c with
      | true => simpa [trimStart, firstMark, hc] using ih
      | false => simp [trimStart, firstMark, hc]

theorem getLast?_trimEnd (s : Text) : (trimEnd s).getLast? = lastMark s := by
  rw [trimEnd, List.getLast?_reverse]
  exact head?_trimStart s.reverse

theorem firstMark_cons {c : Char} (hc : isBlank c = false) (s : Text) :
    firstMark (c :: s) = some c := by
  simp [firstMark, hc]

theorem firstMark_of_after? {c : Char} {w s r : Text} (hc : isBlank c = false)
    (h : after? (c :: w) s = some r) : firstMark s = some c := by
  rw [after?_eq_some_iff.mp h]
  exact firstMark_cons hc _

theorem firstMark_trimStart (s : Text) : firstMark (trimStart s) = firstMark s := by
  rw [← head?_trimStart, ← head?_trimStart, trimStart, trimStart, List.dropWhile_idempotent]

theorem lastMark_append_of_eq_some {c : Char} {s : Text} (h : lastMark s = some c) (u : Text) :
    lastMark (u ++ s) = some c := by
  rw [lastMark] at h
  rw [lastMark, List.reverse_append, List.find?_append, h]
  rfl

theorem lastMark_of_suffix {c : Char} {s t : Text} (h : s <:+ t) (hs : lastMark s = some c) :
    lastMark t = some c := by
  obtain ⟨u, rfl⟩ := h
  exact lastMark_append_of_eq_some hs u

theorem lastMark_of_before? {c : Char} {s r : Text} (h : before? c (trimEnd s) = some r) :
    lastMark s = some c := by
  rw [← getLast?_trimEnd, before?_eq_some_iff.mp h]
  simp

theorem trimStart_suffix (s : Text) : trimStart s <:+ s := List.dropWhile_suffix _

theorem suffix_of_after? {w s r : Text} (h : after? w s = some r) : r <:+ s := by
  rw [after?_eq_some_iff.mp h]
  exact List.suffix_append w r

theorem suffix_of_afterGap? {s r : Text} (h : afterGap? s = some r) : r <:+ s := by
  cases s with
  | nil => simp [afterGap?] at h
  | cons c s =>
      simp only [afterGap?, Option.ite_none_right_eq_some, Option.some.injEq] at h
      rw [← h.2]
      exact (trimStart_suffix s).trans (List.suffix_cons c s)

/-- A gap is followed by text that begins with no white space. -/
theorem trimStart_eq_of_afterGap? {s r : Text} (h : afterGap? s = some r) : trimStart s = r := by
  cases s with
  | nil => simp [afterGap?] at h
  | cons c s =>
      simp only [afterGap?, Option.ite_none_right_eq_some, Option.some.injEq] at h
      rw [← h.2]
      simp [trimStart, h.1]

theorem trimEnd_prefix (s : Text) : trimEnd s <+: s := by
  obtain ⟨g, _, h⟩ := exists_trimEnd_append s
  exact ⟨g, h.symm⟩

theorem firstMark_of_isBlankText {g : Text} (hg : isBlankText g) : firstMark g = none := by
  simpa [firstMark, isBlankText, List.find?_eq_none] using hg

theorem firstMark_trim (s : Text) : firstMark (trim s) = firstMark s := by
  obtain ⟨g, hg, h⟩ := exists_trimEnd_append (trimStart s)
  rw [← firstMark_trimStart s, trim]
  conv_rhs => rw [h, firstMark, List.find?_append]
  change _ = (firstMark _).or (firstMark g)
  rw [firstMark_of_isBlankText hg, Option.or_none]

theorem lastMark_trim (s : Text) : lastMark (trim s) = lastMark (trimStart s) := by
  rw [← getLast?_trimEnd, ← getLast?_trimEnd, trim, trimEnd, trimEnd, List.reverse_reverse,
    List.dropWhile_idempotent]

theorem takeWhile_isWord_trim {c : Char} {s : Text} (hs : firstMark s = some c)
    (hc : isWord c = false) : (trim s).takeWhile isWord = [] := by
  rw [← head?_trimStart] at hs
  obtain ⟨t, ht⟩ := List.head?_eq_some_iff.mp hs
  have hp : trim s <+: c :: t := ht ▸ trimEnd_prefix (trimStart s)
  cases hts : trim s with
  | nil => rfl
  | cons d u =>
      rw [hts] at hp
      rw [(List.cons_prefix_cons.mp hp).1, List.takeWhile_cons, hc]
      rfl

end Text

/-! ## First and last marks -/

theorem suffix_of_afterParenthesis? {s r : Text} (h : afterParenthesis? s = some r) : r <:+ s :=
  (suffix_of_after? h).trans (trimStart_suffix s)

theorem lastMark_of_beforeBlock? {s r : Text} (h : beforeBlock? s = some r) :
    lastMark s = some '\x7b' := by
  obtain ⟨t, ht, _⟩ := Option.bind_eq_some_iff.mp h
  exact lastMark_of_before? ht

theorem Header.exists_of_parse? {line : Text} {h : Header} (hp : Header.parse? line = some h) :
    ∃ s t, after? "void".toList line = some s ∧ t <:+ s ∧ beforeBlock? t = some h.parameters := by
  simp only [Header.parse?, bind, Option.bind_eq_some_iff] at hp
  obtain ⟨s, ⟨s', hs', hgap⟩, t, ht, ps, hps, hh⟩ := hp
  split at hh
  · obtain rfl := Option.some.inj hh
    have hts : t <:+ s :=
      (suffix_of_afterParenthesis? ht).trans (List.dropWhile_suffix _)
    exact ⟨s', t, hs', hts.trans (suffix_of_afterGap? hgap), hps⟩
  · simp at hh

theorem Condition.exists_of_isLine {line : Text} (h : Condition.isLine line) :
    ∃ s t, (after? "if".toList (trimStart line) = some s ∨
      after? "while".toList (trimStart line) = some s) ∧ t <:+ s ∧ (beforeBlock? t).isSome := by
  obtain ⟨r, hr, _⟩ := (Option.any_eq_true _ _).mp h
  obtain ⟨t, ht, hb⟩ := Option.bind_eq_some_iff.mp hr
  obtain ⟨s, hs, hpar⟩ := Option.bind_eq_some_iff.mp ht
  refine ⟨s, t, ?_, suffix_of_afterParenthesis? hpar, by simp [hb]⟩
  rcases Option.or_eq_some_iff.mp hs with hs | ⟨_, hs⟩
  · exact Or.inl hs
  · exact Or.inr hs

/-- The word for a type is a word, and begins neither with white space nor like a comment. -/
theorem Ty.keyword_eq_cons (t : Ty) :
    ∃ c w, t.keyword = c :: w ∧ isBlank c = false ∧ c ≠ '/' ∧ t.keyword.all isWord := by
  cases t <;> exact ⟨_, _, rfl, by decide, by decide, by decide⟩

theorem Declarator.type?_eq_some {s r : Text} {t : Ty} (h : Declarator.type? s = some (t, r)) :
    s = t.keyword ++ r := by
  obtain ⟨u, _, hu⟩ := List.exists_of_findSome?_eq_some h
  obtain ⟨r', hr', he⟩ := Option.map_eq_some_iff.mp hu
  obtain ⟨rfl, rfl⟩ := Prod.mk.inj he
  exact after?_eq_some_iff.mp hr'

/-- A declarator is a type, with the word `final` and a gap before it or not. -/
theorem Declarator.parse?_cases {s r : Text} {d : Declarator}
    (h : Declarator.parse? s = some (d, r)) :
    (d.isFinal = true ∧
        ∃ u, after? "final".toList s = some u ∧ afterGap? u = some (d.ty.keyword ++ r)) ∨
      d.isFinal = false ∧ s = d.ty.keyword ++ r := by
  unfold Declarator.parse? at h
  split at h
  · next s' hs' =>
    obtain ⟨u, hu, hgap⟩ := Option.bind_eq_some_iff.mp hs'
    obtain ⟨⟨t, r'⟩, ht, he⟩ := Option.map_eq_some_iff.mp h
    obtain ⟨rfl, rfl⟩ := Prod.mk.inj he
    exact Or.inl ⟨rfl, u, hu, by rw [hgap, Declarator.type?_eq_some ht]⟩
  · obtain ⟨⟨t, r'⟩, ht, he⟩ := Option.map_eq_some_iff.mp h
    obtain ⟨rfl, rfl⟩ := Prod.mk.inj he
    exact Or.inr ⟨rfl, Declarator.type?_eq_some ht⟩

theorem Declarator.parse?_eq_some {s r : Text} {d : Declarator}
    (h : Declarator.parse? s = some (d, r)) :
    (∃ u, after? "final".toList s = some u ∧ afterGap? u = some (d.ty.keyword ++ r)) ∨
      s = d.ty.keyword ++ r :=
  (Declarator.parse?_cases h).imp And.right And.right

theorem Declarator.suffix_of_parse? {s r : Text} {d : Declarator}
    (h : Declarator.parse? s = some (d, r)) : r <:+ s := by
  rcases Declarator.parse?_eq_some h with ⟨u, hu, hgap⟩ | rfl
  · exact (List.suffix_append _ r).trans ((suffix_of_afterGap? hgap).trans (suffix_of_after? hu))
  · exact List.suffix_append _ r

theorem Declarator.firstMark_of_parse? {s r : Text} {d : Declarator}
    (h : Declarator.parse? s = some (d, r)) : ∃ c, firstMark s = some c ∧ c ≠ '/' := by
  rcases Declarator.parse?_eq_some h with ⟨u, hu, _⟩ | rfl
  · exact ⟨'f', firstMark_of_after? (by decide) hu, by decide⟩
  · obtain ⟨c, w, hk, hb, hs, _⟩ := d.ty.keyword_eq_cons
    rw [hk]
    exact ⟨c, firstMark_cons hb _, hs⟩

theorem Declaration.exists_of_isLine {line : Text} (h : Declaration.isLine line) :
    ∃ d s c r, Declarator.parse? (trimStart line) = some (d, s) ∧
      before? ';' (trimEnd s) = some (c :: r) ∧ isBlank c := by
  rw [Declaration.isLine_eq] at h
  split at h
  · simp at h
  · next d s hd =>
    split at h
    · next c r hr => exact ⟨d, s, c, r, hd, hr, (Bool.and_eq_true_iff.mp h).1⟩
    · simp at h

theorem Assignment.exists_of_isLine {line : Text} (h : Assignment.isLine line) :
    ∃ rest r, trimStart ((trimStart line).dropWhile isWord) = '=' :: rest ∧
      ((trimStart line).takeWhile isWord) ≠ [] ∧ before? ';' (trimEnd rest) = some r := by
  simp only [Assignment.isLine] at h
  split at h
  · simp at h
  · next c rest hrest =>
    simp only [Bool.and_eq_true, beq_iff_eq, Bool.not_eq_true'] at h
    obtain ⟨⟨hw, rfl⟩, hb⟩ := h
    obtain ⟨r, hr, _⟩ := (Option.any_eq_true _ _).mp hb
    exact ⟨rest, r, hrest, by simpa using hw, hr⟩

theorem Call.exists_of_parse? {line : Text} {c : Call} (h : Call.parse? line = some c) :
    Name.isMethod (line.takeWhile isWord) ∧ ∃ s t r,
      trimStart (line.dropWhile isWord) = '(' :: s ∧ after? [')'] t = some r ∧ t <:+ s ∧
        trimStart r = [';'] := by
  simp only [Call.parse?, bind, Option.bind_eq_some_iff] at h
  obtain ⟨s, hs, r, hr, hc⟩ := h
  split at hc
  · next hn =>
    simp only [Bool.and_eq_true, beq_iff_eq] at hn
    refine ⟨hn.1, s, _, r, ?_, hr, List.dropWhile_suffix _, hn.2⟩
    simpa using after?_eq_some_iff.mp hs
  · simp at hc

/-- The mark that ends the lines of each grammar. -/
def Category.lastMark : Category → Option Char
  | .methodDeclaration | .conditionalBlockStart => some '\x7b'
  | .blockEnd => some '\x7d'
  | .variableDeclaration | .methodCall | .variableAssignment | .returnStatement => some ';'
  | .illegalComment | .unknown => none

theorem Category.lastMark_of_admits {c : Category} {line : Text} (h : c.admits line) :
    Text.lastMark line = c.lastMark := by
  cases c with
  | illegalComment => exact absurd h (by simp [admits])
  | unknown => exact absurd h (by simp [admits])
  | methodDeclaration =>
      obtain ⟨hd, hp⟩ := Option.isSome_iff_exists.mp h
      obtain ⟨s, t, hs, hts, hb⟩ := Header.exists_of_parse? hp
      exact lastMark_of_suffix (hts.trans (suffix_of_after? hs)) (lastMark_of_beforeBlock? hb)
  | conditionalBlockStart =>
      obtain ⟨s, t, hs, hts, hb⟩ := Condition.exists_of_isLine h
      obtain ⟨r, hr⟩ := Option.isSome_iff_exists.mp hb
      have hst : s <:+ trimStart line := hs.elim suffix_of_after? suffix_of_after?
      exact lastMark_of_suffix (hts.trans (hst.trans (trimStart_suffix line)))
        (lastMark_of_beforeBlock? hr)
  | variableDeclaration =>
      obtain ⟨d, s, c, r, hd, hr, _⟩ := Declaration.exists_of_isLine h
      exact lastMark_of_suffix ((Declarator.suffix_of_parse? hd).trans (trimStart_suffix line))
        (lastMark_of_before? hr)
  | methodCall =>
      obtain ⟨call, hp⟩ := Option.isSome_iff_exists.mp h
      obtain ⟨_, s, t, r, hs, ht, hts, hr⟩ := Call.exists_of_parse? hp
      have hsl : s <:+ line :=
        (List.suffix_cons '(' s).trans
          (hs ▸ (trimStart_suffix _).trans (List.dropWhile_suffix _))
      have hrl : [';'] <:+ line :=
        hr ▸ ((trimStart_suffix r).trans (suffix_of_after? ht)).trans (hts.trans hsl)
      exact lastMark_of_suffix hrl (by decide)
  | blockEnd =>
      have ht : trim line = ['\x7d'] := by simpa [admits, isBlockEnd] using h
      have hl : Text.lastMark (trimStart line) = some '\x7d' := by
        rw [← lastMark_trim, ht]
        decide
      exact lastMark_of_suffix (trimStart_suffix line) hl
  | variableAssignment =>
      obtain ⟨rest, r, hrest, _, hr⟩ := Assignment.exists_of_isLine h
      have hrl : rest <:+ line :=
        (List.suffix_cons '=' rest).trans
          (hrest ▸ ((trimStart_suffix _).trans (List.dropWhile_suffix _)).trans
            (trimStart_suffix line))
      exact lastMark_of_suffix hrl (lastMark_of_before? hr)
  | returnStatement =>
      obtain ⟨s, hs, hr⟩ := (Option.any_eq_true _ _).mp h
      have hsemi : trimStart s = [';'] := by simpa using hr
      have hl : Text.lastMark (trimStart line) = some ';' := by
        rw [← lastMark_trim]
        refine lastMark_of_suffix ((trimStart_suffix s).trans (suffix_of_after? hs)) ?_
        rw [hsemi]
        decide
      exact lastMark_of_suffix (trimStart_suffix line) hl

theorem firstMark_eq_of_takeWhile {s : Text} (h : (s.takeWhile isWord) ≠ []) :
    ∃ c, firstMark s = some c ∧ isWord c := by
  cases s with
  | nil => exact absurd rfl h
  | cons c s =>
      have hc : isWord c := by
        cases hc : isWord c with
        | true => rfl
        | false => simp [hc] at h
      have hb : isBlank c = false := by
        cases hb : isBlank c with
        | false => rfl
        | true => rw [isWord_eq_false_of_isBlank hb] at hc; exact absurd hc (by decide)
      exact ⟨c, firstMark_cons hb s, hc⟩

theorem trimStart_eq_of_takeWhile {s : Text} (h : (s.takeWhile isWord) ≠ []) :
    trimStart s = s := by
  cases s with
  | nil => rfl
  | cons c s =>
      apply trimStart_cons
      cases hb : isBlank c with
      | false => rfl
      | true => simp [isWord_eq_false_of_isBlank hb] at h

theorem ne_slash_of_isWord {c : Char} (h : isWord c) : c ≠ '/' := by
  rintro rfl
  exact absurd h (Bool.eq_false_iff.mp (isWord_eq_false_of_ascii (by decide)))

/-- No grammar admits a line that begins like a comment. -/
theorem Category.firstMark_of_admits {c : Category} {line : Text} (h : c.admits line) :
    firstMark line ≠ some '/' := by
  cases c with
  | illegalComment => exact absurd h (by simp [admits])
  | unknown => exact absurd h (by simp [admits])
  | methodDeclaration =>
      obtain ⟨hd, hp⟩ := Option.isSome_iff_exists.mp h
      obtain ⟨s, t, hs, _⟩ := Header.exists_of_parse? hp
      rw [firstMark_of_after? (by decide) hs]
      decide
  | conditionalBlockStart =>
      obtain ⟨s, t, hs | hs, _⟩ := Condition.exists_of_isLine h <;>
        rw [← firstMark_trimStart, firstMark_of_after? (by decide) hs] <;> decide
  | variableDeclaration =>
      obtain ⟨d, s, _, _, hd, _⟩ := Declaration.exists_of_isLine h
      obtain ⟨c, hc, hs⟩ := Declarator.firstMark_of_parse? hd
      rw [← firstMark_trimStart, hc]
      simpa using hs
  | methodCall =>
      obtain ⟨call, hp⟩ := Option.isSome_iff_exists.mp h
      have hne : line.takeWhile isWord ≠ [] := by
        intro hnil
        simpa [hnil, Name.isMethod] using (Call.exists_of_parse? hp).1
      obtain ⟨c, hc, hw⟩ := firstMark_eq_of_takeWhile hne
      rw [hc]
      simpa using ne_slash_of_isWord hw
  | blockEnd =>
      have ht : trim line = ['\x7d'] := by simpa [admits, isBlockEnd] using h
      rw [← firstMark_trim, ht]
      decide
  | variableAssignment =>
      obtain ⟨rest, r, _, hne, _⟩ := Assignment.exists_of_isLine h
      obtain ⟨c, hc, hw⟩ := firstMark_eq_of_takeWhile hne
      rw [← firstMark_trimStart, hc]
      simpa using ne_slash_of_isWord hw
  | returnStatement =>
      obtain ⟨s, hs, _⟩ := (Option.any_eq_true _ _).mp h
      rw [← firstMark_trim, firstMark_of_after? (by decide) hs]
      decide

/-! ## A line and its category -/

/-- What follows the first word of a line, from the first character on that is not white
space. -/
def Text.afterWord (line : Text) : Text := trimStart ((trimStart line).dropWhile isWord)

namespace Category

theorem isComment_eq_false_of_admits {c : Category} {line : Text} (h : c.admits line) :
    isComment line = false := by
  cases hc : isComment line with
  | false => rfl
  | true =>
      obtain ⟨r, hr⟩ := Option.isSome_iff_exists.mp hc
      exact absurd (firstMark_of_after? (by decide) hr) (firstMark_of_admits h)

theorem admits_eq_false_of_lastMark {c c' : Category} {line : Text} (h : c.admits line)
    (hne : c.lastMark ≠ c'.lastMark) : c'.admits line = false := by
  cases hc : c'.admits line with
  | false => rfl
  | true => exact absurd ((lastMark_of_admits h).symm.trans (lastMark_of_admits hc)) hne

/-- Headers and conditions end alike and begin with different words. -/
theorem methodDeclaration_admits_eq_false {line : Text} (h : conditionalBlockStart.admits line) :
    methodDeclaration.admits line = false := by
  cases hm : methodDeclaration.admits line with
  | false => rfl
  | true =>
      obtain ⟨hd, hp⟩ := Option.isSome_iff_exists.mp hm
      obtain ⟨s, t, hs, _⟩ := Header.exists_of_parse? hp
      have hv := firstMark_of_after? (by decide) hs
      obtain ⟨s', t', hs' | hs', _⟩ := Condition.exists_of_isLine h <;>
        rw [← firstMark_trimStart, firstMark_of_after? (by decide) hs'] at hv <;>
        exact absurd hv (by decide)

theorem exists_afterWord_of_variableAssignment {line : Text}
    (h : variableAssignment.admits line) : ∃ rest, afterWord line = '=' :: rest := by
  obtain ⟨rest, _, hrest, _⟩ := Assignment.exists_of_isLine h
  exact ⟨rest, hrest⟩

theorem exists_afterWord_of_methodCall {line : Text} (h : methodCall.admits line) :
    ∃ rest, afterWord line = '(' :: rest := by
  obtain ⟨call, hp⟩ := Option.isSome_iff_exists.mp h
  obtain ⟨hn, s, _, _, hs, _⟩ := Call.exists_of_parse? hp
  have hword : line.takeWhile isWord ≠ [] := by
    intro hnil
    simp [hnil, Name.isMethod] at hn
  rw [afterWord, trimStart_eq_of_takeWhile hword]
  exact ⟨s, hs⟩

/-- A call has a parenthesis where an assignment has an equals sign. -/
theorem methodCall_admits_eq_false {line : Text} (h : variableAssignment.admits line) :
    methodCall.admits line = false := by
  cases hm : methodCall.admits line with
  | false => rfl
  | true =>
      obtain ⟨rest, hrest⟩ := exists_afterWord_of_variableAssignment h
      obtain ⟨rest', hrest'⟩ := exists_afterWord_of_methodCall hm
      exact absurd (List.cons.inj (hrest.symm.trans hrest')).1 (by decide)

theorem admits_of_of_eq {c : Category} {line : Text} (h : of line = c)
    (hc : c ≠ illegalComment) (hu : c ≠ unknown) : c.admits line := by
  unfold of at h
  split at h
  · exact absurd h.symm hc
  · cases hf : byPriority.find? fun c => c.admits line with
    | none => rw [hf] at h; exact absurd h.symm hu
    | some c' =>
        rw [hf] at h
        obtain rfl : c' = c := h
        simpa using List.find?_some hf

/-- A line belongs to the first category in the order of priority that admits it. -/
theorem of_eq_of_admits {c : Category} {line : Text} (before : List Category)
    {after : List Category} (hp : byPriority = before ++ c :: after) (h : c.admits line)
    (hb : ∀ c' ∈ before, c'.admits line = false) : of line = c := by
  have hf : (byPriority.find? fun c => c.admits line) = some c := by
    rw [hp, List.find?_append, List.find?_eq_none.mpr (fun c' hc' => by simp [hb c' hc'])]
    simp [h]
  rw [of, isComment_eq_false_of_admits h, hf]
  rfl

/-- The grammars that the survey asks for open and close blocks and declare variables.  Such
a grammar admits a line exactly when the inspection takes the line by it. -/
theorem admits_iff_of_eq {c : Category}
    (hc : c ∈ [methodDeclaration, variableDeclaration, conditionalBlockStart, blockEnd])
    (line : Text) :
    c.admits line ↔ of line = c := by
  simp only [List.mem_cons, List.not_mem_nil, or_false] at hc
  constructor
  · intro h
    rcases hc with rfl | rfl | rfl | rfl
    · exact of_eq_of_admits [] rfl h (by simp)
    · refine of_eq_of_admits [methodDeclaration] rfl h fun c' hc' => ?_
      obtain rfl := List.mem_singleton.mp hc'
      exact admits_eq_false_of_lastMark h (by decide)
    · refine of_eq_of_admits [methodDeclaration, variableDeclaration] rfl h ?_
      intro c' hc'
      simp only [List.mem_cons, List.not_mem_nil, or_false] at hc'
      rcases hc' with rfl | rfl
      · exact methodDeclaration_admits_eq_false h
      · exact admits_eq_false_of_lastMark h (by decide)
    · refine of_eq_of_admits [methodDeclaration, variableDeclaration,
        conditionalBlockStart, methodCall] rfl h fun c' hc' => ?_
      simp only [List.mem_cons, List.not_mem_nil, or_false] at hc'
      rcases hc' with rfl | rfl | rfl | rfl <;> exact admits_eq_false_of_lastMark h (by decide)
  · intro h
    rcases hc with rfl | rfl | rfl | rfl <;> exact admits_of_of_eq h (by decide) (by decide)

/-- A line with the grammar of an assignment is one, or is taken for a declaration. -/
theorem of_eq_of_variableAssignment {line : Text} (h : variableAssignment.admits line) :
    of line = variableAssignment ∨ of line = variableDeclaration := by
  cases hd : variableDeclaration.admits line with
  | true => exact Or.inr ((admits_iff_of_eq (by simp) line).mp hd)
  | false =>
      refine Or.inl (of_eq_of_admits [methodDeclaration, variableDeclaration,
        conditionalBlockStart, methodCall, blockEnd] rfl h fun c' hc' => ?_)
      simp only [List.mem_cons, List.not_mem_nil, or_false] at hc'
      rcases hc' with rfl | rfl | rfl | rfl | rfl
      · exact admits_eq_false_of_lastMark h (by decide)
      · exact hd
      · exact admits_eq_false_of_lastMark h (by decide)
      · exact methodCall_admits_eq_false h
      · exact admits_eq_false_of_lastMark h (by decide)

/-- How the lines of a category change the number of open blocks. -/
def change : Category → Int
  | methodDeclaration | conditionalBlockStart => 1
  | blockEnd => -1
  | _ => 0

end Category

/-- The survey counts blocks as the categories of the lines say. -/
theorem Verifier.nestingChange_eq (line : Text) :
    nestingChange line = (Category.of line).change := by
  have hm := Category.admits_iff_of_eq (c := .methodDeclaration) (by simp) line
  have hc := Category.admits_iff_of_eq (c := .conditionalBlockStart) (by simp) line
  have hb := Category.admits_iff_of_eq (c := .blockEnd) (by simp) line
  rw [nestingChange]
  simp only [hm, hc, hb]
  cases Category.of line <;> decide

/-! ## Declarations without clauses -/

theorem takeWhile_isWord_append {w s : Text} (hw : w.all isWord)
    (hs : ∀ c, s.head? = some c → isWord c = false) :
    (w ++ s).takeWhile isWord = w ∧ (w ++ s).dropWhile isWord = s := by
  have hw' : ∀ c ∈ w, isWord c := List.all_eq_true.mp hw
  rw [List.takeWhile_append_of_pos hw', List.dropWhile_append_of_pos hw']
  cases s with
  | nil => simp
  | cons c s => simp [hs c rfl]

/-- A word ends at a mark, also where there is white space before the mark. -/
theorem takeWhile_isWord_gap {w g : Text} {c : Char} (hw : w.all isWord) (hg : isBlankText g)
    (hc : isWord c = false) (s : Text) :
    (w ++ (g ++ c :: s)).takeWhile isWord = w ∧
      (w ++ (g ++ c :: s)).dropWhile isWord = g ++ c :: s := by
  refine takeWhile_isWord_append hw fun a ha => ?_
  cases g with
  | nil =>
      obtain rfl : c = a := Option.some.inj ha
      exact hc
  | cons b g =>
      obtain rfl : b = a := Option.some.inj ha
      exact isWord_eq_false_of_isBlank (List.all_eq_true.mp hg b List.mem_cons_self)

theorem isWord_eq_false_of_afterGap? {s r : Text} (h : afterGap? s = some r) :
    ∀ c, s.head? = some c → isWord c = false := by
  cases s with
  | nil => simp [afterGap?] at h
  | cons d s =>
      simp only [afterGap?, Option.ite_none_right_eq_some] at h
      intro c hc
      obtain rfl := Option.some.inj hc
      exact isWord_eq_false_of_isBlank h.1

/-- No clause begins with a mark. -/
theorem Clause.parseAll?_cons_mark {c : Char} (hblank : isBlank c = false)
    (hword : isWord c = false) (hcomma : c ≠ ',') (hsemi : c ≠ ';') (rest : Text) :
    parseAll? (c :: rest) = none := by
  cases hp : parseAll? (c :: rest) with
  | none => rfl
  | some cs =>
      obtain ⟨body, hbody, hcs⟩ := Option.bind_eq_some_iff.mp hp
      have heq := before?_eq_some_iff.mp hbody
      cases body with
      | nil => exact absurd (List.cons.inj heq).1 hsemi
      | cons d body =>
          obtain rfl : c = d := (List.cons.inj heq).1
          obtain ⟨p, ps, hps⟩ := List.exists_cons_of_ne_nil (List.splitOn_ne_nil ',' body)
          have hfirst : isClause (c :: p) = false := by
            have htake : (trim (c :: p)).takeWhile isWord = [] :=
              takeWhile_isWord_trim (firstMark_cons hblank p) hword
            simp [isClause, htake, Name.isVariable]
          rw [List.splitOn_cons_eq_if_modifyHead, hps] at hcs
          simp [hfirst, hcomma] at hcs

/-- The clauses of a declaration cannot be read if a mark follows its first word: after
`final` there must be a type, and after a type the first name. -/
theorem Declaration.parse?_eq_none_of_afterWord {c : Char} {line rest : Text}
    (h : afterWord line = c :: rest) (hblank : isBlank c = false) (hword : isWord c = false)
    (hcomma : c ≠ ',') (hsemi : c ≠ ';') : Declaration.parse? line = none := by
  cases hd : Declarator.parse? line with
  | none => simp [Declaration.parse?_eq, hd]
  | some p =>
      obtain ⟨d, s⟩ := p
      cases hg : afterGap? s with
      | none => simp [Declaration.parse?_eq, hd, hg]
      | some t =>
          obtain ⟨k, w, hk, hkb, _, hkw⟩ := d.ty.keyword_eq_cons
          rw [afterWord] at h
          rcases Declarator.parse?_eq_some hd with ⟨u, hu, hgap⟩ | hline
          · have hf : line = "final".toList ++ u := after?_eq_some_iff.mp hu
            have htrim : trimStart line = line := by rw [hf]; exact trimStart_cons (by decide) _
            have hdrop := (takeWhile_isWord_append (w := "final".toList) (by decide)
              (isWord_eq_false_of_afterGap? hgap)).2
            rw [htrim, hf, hdrop, trimStart_eq_of_afterGap? hgap, hk] at h
            rw [hk, List.all_cons, (List.cons.inj h).1, hword] at hkw
            exact absurd hkw (by simp)
          · have htrim : trimStart line = line := by
              rw [hline, hk]
              exact trimStart_cons hkb _
            have hdrop := (takeWhile_isWord_append hkw (isWord_eq_false_of_afterGap? hg)).2
            rw [htrim, hline, hdrop, trimStart_eq_of_afterGap? hg] at h
            have hnone := Clause.parseAll?_cons_mark hblank hword hcomma hsemi rest
            simp [Declaration.parse?_eq, hd, hg, h, hnone]

/-- Where a declaration could be read as an assignment, its clauses cannot be read at
all: the equals sign stands where the first name should. -/
theorem Declaration.parse?_eq_none {line : Text} (h : Assignment.isLine line) :
    Declaration.parse? line = none := by
  obtain ⟨rest, r, hrest, _⟩ := Assignment.exists_of_isLine h
  exact parse?_eq_none_of_afterWord hrest (by decide) (isWord_eq_false_of_ascii (by decide))
    (by decide) (by decide)

end SJava
