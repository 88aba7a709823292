/-
Declarations and assignments as they are written.

A statement is a series of clauses with commas between them and a semicolon at its end, and
white space can stand between any two of its tokens (`Clause.Series`).  A declaration has a
type in front of the series, and perhaps the word `final` in front of the type
(`Declaration.Spaced`).  Reading such a line gives its parts back, whatever the white space is,
and on one line there is nothing else that can be read (`Declaration.exists_spaced`,
`Assignment.exists_series`).  So what decides that a line is a statement and what takes it apart
agree on every line.
-/
import SJava.Proofs.Phrases
import SJava.Proofs.SymbolTables

namespace SJava

open Text

/-! ## White space -/

/-- White space within a line. -/
structure Gap where
  text : Text
  blank : isBlankText text
  oneLine : '\n' ∉ text

/-- White space within a line, and at least one character of it. -/
structure WideGap extends Gap where
  ne_nil : text ≠ []

theorem Gap.not_mem (gap : Gap) {c : Char} (hc : isBlank c = false) : c ∉ gap.text :=
  not_mem_of_isBlankText gap.blank hc

def Gap.empty : Gap := ⟨[], rfl, by simp⟩

theorem WideGap.afterGap?_append (gap : WideGap) (s : Text) :
    afterGap? (gap.text ++ s) = some (trimStart s) := by
  obtain ⟨c, g, hg⟩ := List.exists_cons_of_ne_nil gap.ne_nil
  have hblank := gap.blank
  rw [hg] at hblank ⊢
  simp only [isBlankText, List.all_cons, Bool.and_eq_true] at hblank
  exact Text.afterGap?_append hblank.1 hblank.2

namespace Text

/-- The white space that is passed over. -/
theorem exists_append_of_afterGap? {s r : Text} (h : afterGap? s = some r) :
    ∃ g, g ≠ [] ∧ isBlankText g ∧ s = g ++ r := by
  cases s with
  | nil => simp [afterGap?] at h
  | cons c s =>
      simp only [afterGap?, Option.ite_none_right_eq_some, Option.some.injEq] at h
      obtain ⟨hc, rfl⟩ := h
      obtain ⟨g, hg, hs⟩ := exists_append_trimStart s
      refine ⟨c :: g, List.cons_ne_nil c g, ?_, congrArg (c :: ·) hs⟩
      simp only [isBlankText, List.all_cons, hc, Bool.true_and]
      exact hg

/-- No white space is left at the end of a trimmed text. -/
theorem isBlank_eq_false_of_trimEnd {s r : Text} {c : Char} (hs : trimEnd s = s)
    (h : s = r ++ [c]) : isBlank c = false := by
  have hlast : trimEnd [c] = [c] := trimEnd_eq_of_suffix hs (h ▸ List.suffix_append r [c])
  cases hc : isBlank c with
  | false => rfl
  | true => simp [trimEnd, hc] at hlast

/-- What ends a trimmed text and does not begin with white space has none around it. -/
theorem bare_of_suffix_trim {s v r : Text} {c : Char} (h : v <:+ trim s) (hv : v = c :: r)
    (hc : isBlank c = false) : v.Bare := by
  refine ⟨⟨c, r, hv, hc⟩, ?_⟩
  have hne : v ≠ [] := by rw [hv]; exact List.cons_ne_nil c r
  obtain ⟨u, hu⟩ := h
  refine ⟨v.dropLast, v.getLast hne, (List.dropLast_append_getLast hne).symm, ?_⟩
  refine isBlank_eq_false_of_trimEnd (s := trim s) (r := u ++ v.dropLast)
    (trimEnd_trim s) ?_
  rw [List.append_assoc, List.dropLast_append_getLast, hu]

/-- A value as it can be written: the marks that end it are not part of it, and there is no white
space around it. -/
structure IsValue (v : Text) : Prop where
  bare : v.Bare
  comma : ',' ∉ v
  semicolon : ';' ∉ v
  oneLine : '\n' ∉ v

end Text

/-! ## Clauses -/

namespace Clause

/-- The clause can be written. -/
structure Writable (c : Clause) : Prop where
  name : Name.isVariable c.name
  value : ∀ v, c.value = some v → v.IsValue

/-- A clause and the white space around its equals sign, if it has one, and after it. -/
structure Spaced where
  clause : Clause
  writable : clause.Writable
  left : Gap
  right : Gap
  after : Gap

namespace Spaced

/-- The equals sign and the value. -/
def valueText (c : Spaced) : Text :=
  match c.clause.value with
  | none => []
  | some v => c.left.text ++ '=' :: (c.right.text ++ v)

def text (c : Spaced) : Text := c.clause.name ++ (c.valueText ++ c.after.text)

variable (c : Spaced)

/-- The marks of a clause are its equals sign and those of its value. -/
theorem mem_text_iff {a : Char} (hblank : isBlank a = false) (hword : isWord a = false) :
    a ∈ c.text ↔ ∃ v, c.clause.value = some v ∧ (a = '=' ∨ a ∈ v) := by
  have hname := Name.not_mem_of_isVariable c.writable.name hword
  rw [text, valueText]
  cases c.clause.value with
  | none => simp [hname, c.after.not_mem hblank]
  | some v =>
      simp [hname, c.after.not_mem hblank, c.left.not_mem hblank, c.right.not_mem hblank]

theorem comma_not_mem_text : ',' ∉ c.text := by
  rw [c.mem_text_iff (by decide) (isWord_eq_false_of_ascii (by decide))]
  rintro ⟨v, hv, h | h⟩
  · exact absurd h (by decide)
  · exact (c.writable.value v hv).comma h

theorem comma_not_mem_append (gap : Gap) : ',' ∉ gap.text ++ c.text := by
  rw [List.mem_append]
  exact not_or.mpr ⟨gap.not_mem (by decide), c.comma_not_mem_text⟩

theorem semicolon_not_mem_text : ';' ∉ c.text := by
  rw [c.mem_text_iff (by decide) (isWord_eq_false_of_ascii (by decide))]
  rintro ⟨v, hv, h | h⟩
  · exact absurd h (by decide)
  · exact (c.writable.value v hv).semicolon h

/-- Only a clause with a value has an equals sign. -/
theorem equals_mem_text_iff : '=' ∈ c.text ↔ c.clause.value.isSome := by
  rw [c.mem_text_iff (by decide) (isWord_eq_false_of_ascii (by decide)),
    Option.isSome_iff_exists]
  exact ⟨fun ⟨v, hv, _⟩ => ⟨v, hv⟩, fun ⟨v, hv⟩ => ⟨v, hv, Or.inl rfl⟩⟩

theorem oneLine_text : '\n' ∉ c.text := by
  have hname := Name.not_mem_of_isVariable c.writable.name
    (isWord_eq_false_of_ascii (c := '\n') (by decide))
  rw [text, valueText]
  cases hv : c.clause.value with
  | none => simp [hname, c.after.oneLine]
  | some v =>
      simp [hname, c.left.oneLine, c.right.oneLine, (c.writable.value v hv).oneLine,
        c.after.oneLine]

/-- The clause is read back. -/
theorem parse?_text : parse? c.text = some c.clause := by
  obtain ⟨⟨x, value⟩, hw, left, right, after⟩ := c
  cases value with
  | none => exact parse?_name hw.name after.blank
  | some v =>
      have hvalue := hw.value v rfl
      obtain ⟨a, r, rfl, ha⟩ := hvalue.bare.first
      have hline : '\n' ∉ a :: (r ++ after.text) := by
        rw [← List.cons_append, List.mem_append]
        exact not_or.mpr ⟨hvalue.oneLine, after.oneLine⟩
      have htrim : trimEnd (a :: (r ++ after.text)) = a :: r := by
        rw [← List.cons_append, trimEnd_append after.blank, hvalue.bare.trimEnd_eq]
      have hparse := parse?_gaps hw.name left.blank right.blank ha hline
      rw [htrim] at hparse
      simpa [text, valueText] using hparse

end Spaced

/-- White space in front of a clause is not part of it. -/
theorem parse?_append_left {gap : Text} (hgap : isBlankText gap) (s : Text) :
    parse? (gap ++ s) = parse? s := by
  have htrim : trim (gap ++ s) = trim s := by rw [trim, trim, Text.trimStart_append hgap]
  rw [parse?, parse?, htrim]

/-- The tokens of a clause with a value, and the white space between them. -/
theorem exists_gaps_of_rest {p rest : Text}
    (hrest : trimStart ((trim p).dropWhile isWord) = '=' :: rest) (hne : trimStart rest ≠ []) :
    ∃ left right, isBlankText left ∧ isBlankText right ∧ (trimStart rest).Bare ∧
      trim p = (trim p).takeWhile isWord ++ (left ++ '=' :: (right ++ trimStart rest)) := by
  obtain ⟨left, hleft, hdrop⟩ := exists_append_trimStart ((trim p).dropWhile isWord)
  obtain ⟨right, hright, hvalue⟩ := exists_append_trimStart rest
  have hparts : trim p =
      (trim p).takeWhile isWord ++ (left ++ '=' :: (right ++ trimStart rest)) := by
    rw [← hvalue, ← hrest, ← hdrop, List.takeWhile_append_dropWhile]
  have hsuffix : trimStart rest <:+ trim p := by
    rw [hparts]
    exact ((List.suffix_append _ _).trans (List.suffix_cons '=' _)).trans
      ((List.suffix_append _ _).trans (List.suffix_append _ _))
  obtain ⟨a, r, hv⟩ := List.exists_cons_of_ne_nil hne
  have hbare := bare_of_suffix_trim hsuffix hv (isBlank_eq_false_of_trimStart hv)
  exact ⟨left, right, hleft, hright, hbare, hparts⟩

/-- What can be read as a clause, on one line and up to the marks that end it, is a clause with
white space. -/
theorem exists_spaced_of_parse? {p : Text} {c : Clause} (h : parse? p = some c)
    (hcomma : ',' ∉ p) (hsemi : ';' ∉ p) (hline : '\n' ∉ p) :
    ∃ (gap : Gap) (sp : Spaced), p = gap.text ++ sp.text ∧ sp.clause = c := by
  obtain ⟨before, hbefore, hstart⟩ := exists_append_trimStart p
  obtain ⟨after, hafter, hend⟩ := exists_trimEnd_append (trimStart p)
  have hp : p = before ++ (trim p ++ after) := by rw [trim, ← hend, ← hstart]
  have hfeed := hline
  rw [hp, List.mem_append, List.mem_append, not_or, not_or] at hfeed
  simp only [parse?] at h
  split at h
  · next hname =>
    split at h
    · -- The clause is a name.
      next hrest =>
      obtain rfl := Option.some.inj h
      rw [takeWhile_isWord_of_trimStart_eq_nil hrest] at hname
      exact ⟨⟨before, hbefore, hfeed.1⟩, ⟨⟨trim p, none⟩, ⟨hname, by simp⟩, .empty, .empty,
        ⟨after, hafter, hfeed.2.2⟩⟩, hp, rfl⟩
    · -- The clause is a name, an equals sign and a value.
      next d rest hrest =>
      have hvalue : trimStart rest <:+: p := (infix_value hrest).trans (infix_trim p)
      split at h
      · simp at h
      next hequals =>
      split at h
      · next hbreak => exact absurd (hvalue.subset (by simpa using hbreak)) hline
      · obtain rfl := Option.some.inj h
        obtain ⟨rfl, hne⟩ : d = '=' ∧ trimStart rest ≠ [] := by simpa using hequals
        obtain ⟨left, right, hleft, hright, hbare, hparts⟩ := exists_gaps_of_rest hrest hne
        have hinner := hfeed.2.1
        rw [hparts] at hinner
        simp only [List.mem_append, List.mem_cons, not_or] at hinner
        have hwritable : Writable ⟨(trim p).takeWhile isWord, some (trimStart rest)⟩ := by
          refine ⟨hname, fun v hv => ?_⟩
          obtain rfl := Option.some.inj hv
          exact ⟨hbare, fun hm => hcomma (hvalue.subset hm), fun hm => hsemi (hvalue.subset hm),
            fun hm => hline (hvalue.subset hm)⟩
        refine ⟨⟨before, hbefore, hfeed.1⟩, ⟨_, hwritable, ⟨left, hleft, hinner.2.1⟩,
          ⟨right, hright, hinner.2.2.2.1⟩, ⟨after, hafter, hfeed.2.2⟩⟩, ?_, rfl⟩
        conv_lhs => rw [hp, hparts]
        simp [Spaced.text, Spaced.valueText]
  · simp at h

/-! ## Series of clauses -/

/-- The clauses of a statement, with white space after each comma. -/
inductive Series where
  | last (c : Spaced)
  | more (c : Spaced) (gap : Gap) (rest : Series)

namespace Series

def clauses : Series → List Clause
  | last c => [c.clause]
  | more c _ rest => c.clause :: rest.clauses

/-- The text up to the semicolon. -/
def body : Series → Text
  | last c => c.text
  | more c gap rest => c.text ++ ',' :: (gap.text ++ rest.body)

def text (s : Series) : Text := s.body ++ [';']

theorem semicolon_not_mem_body (s : Series) : ';' ∉ s.body := by
  induction s with
  | last c => exact c.semicolon_not_mem_text
  | more c gap rest ih =>
      simp only [body, List.mem_append, List.mem_cons, not_or]
      exact ⟨c.semicolon_not_mem_text, by decide, gap.not_mem (by decide), ih⟩

theorem oneLine_text (s : Series) : '\n' ∉ s.text := by
  have hbody : '\n' ∉ s.body := by
    induction s with
    | last c => exact c.oneLine_text
    | more c gap rest ih => simp [body, c.oneLine_text, gap.oneLine, ih]
  simp [text, hbody]

/-- The lists of clauses that can be written. -/
theorem exists_clauses_iff {cs : List Clause} :
    (∃ s : Series, s.clauses = cs) ↔ cs ≠ [] ∧ ∀ c ∈ cs, c.Writable := by
  constructor
  · rintro ⟨s, rfl⟩
    induction s with
    | last c => exact ⟨by simp [clauses], by simpa [clauses] using c.writable⟩
    | more c gap rest ih => exact ⟨by simp [clauses], by simpa [clauses] using ⟨c.writable, ih.2⟩⟩
  · rintro ⟨hne, hcs⟩
    induction cs with
    | nil => exact absurd rfl hne
    | cons c cs ih =>
        have hc : c.Writable := hcs c List.mem_cons_self
        let sp : Spaced := ⟨c, hc, .empty, .empty, .empty⟩
        cases cs with
        | nil => exact ⟨.last sp, rfl⟩
        | cons c' cs =>
            obtain ⟨s, hs⟩ := ih (List.cons_ne_nil c' cs) fun a ha =>
              hcs a (List.mem_cons_of_mem c ha)
            exact ⟨.more sp .empty s, congrArg (c :: ·) hs⟩

/-- A series begins with a name. -/
theorem exists_text_eq_cons (s : Series) : ∃ a r, s.text = a :: r ∧ isBlank a = false := by
  have hspaced (c : Spaced) (u : Text) : ∃ a r, c.text ++ u = a :: r ∧ isBlank a = false := by
    obtain ⟨a, r, hname, ha⟩ := (Name.bare_of_isVariable c.writable.name).first
    exact ⟨a, _, by rw [Spaced.text, hname]; rfl, ha⟩
  cases s with
  | last c => exact hspaced c [';']
  | more c gap rest =>
      rw [text, body, List.append_assoc]
      exact hspaced c _

theorem trimStart_text (s : Series) : trimStart s.text = s.text := by
  obtain ⟨a, r, hs, ha⟩ := s.exists_text_eq_cons
  rw [hs]
  exact trimStart_cons ha r

/-- The pieces between the commas are the clauses.  The white space after a comma is part of the
next piece, so the induction carries some in front of the series. -/
theorem mapM_parse?_body (s : Series) (gap : Gap) :
    ((gap.text ++ s.body).splitOn ',').mapM parse? = some s.clauses := by
  induction s generalizing gap with
  | last c =>
      rw [body, splitOn_comma_of_not_mem (c.comma_not_mem_append gap)]
      simp [parse?_append_left gap.blank, c.parse?_text, clauses]
  | more c gap' rest ih =>
      rw [body, ← List.append_assoc, splitOn_comma_append (c.comma_not_mem_append gap),
        List.mapM_cons, parse?_append_left gap.blank, c.parse?_text, ih gap']
      rfl

theorem parseAll?_text (s : Series) : parseAll? s.text = some s.clauses := by
  rw [text, parseAll?_eq s.semicolon_not_mem_body]
  exact s.mapM_parse?_body .empty

/-- The pieces between the commas that have an equals sign are the clauses with a value. -/
theorem all_equals_text (s : Series) (gap : Gap) :
    ((gap.text ++ s.text).splitOn ',').all (·.contains '=') = s.clauses.all (·.value.isSome) := by
  have hspaced (c : Spaced) (gap : Gap) :
      (gap.text ++ c.text).contains '=' = c.clause.value.isSome := by
    rw [Bool.eq_iff_iff, List.contains_iff_mem, List.mem_append, c.equals_mem_text_iff]
    exact or_iff_right (gap.not_mem (by decide))
  induction s generalizing gap with
  | last c =>
      have hcomma : ',' ∉ gap.text ++ c.text ++ [';'] := by
        rw [List.mem_append]
        exact not_or.mpr ⟨c.comma_not_mem_append gap, by decide⟩
      rw [text, body, ← List.append_assoc, splitOn_comma_of_not_mem hcomma]
      simpa [clauses] using hspaced c gap
  | more c gap' rest ih =>
      have htext : gap.text ++ (more c gap' rest).text =
          (gap.text ++ c.text) ++ ',' :: (gap'.text ++ rest.text) := by simp [text, body]
      rw [htext, splitOn_comma_append (c.comma_not_mem_append gap), List.all_cons, ih gap',
        hspaced c gap]
      rfl

end Series

/-- The pieces of a line between its commas, if all of them are clauses, form a series. -/
theorem exists_series_of_mapM {body : Text} {cs : List Clause}
    (h : (body.splitOn ',').mapM parse? = some cs) (hsemi : ';' ∉ body) (hline : '\n' ∉ body) :
    ∃ (gap : Gap) (s : Series), body = gap.text ++ s.body ∧ s.clauses = cs := by
  induction hn : body.length using Nat.strong_induction_on generalizing body cs with
  | _ n ih =>
  subst hn
  by_cases hcomma : ',' ∈ body
  · obtain ⟨u, r, rfl, hu⟩ := List.eq_append_cons_of_mem hcomma
    simp only [List.mem_append, List.mem_cons, not_or] at hsemi hline
    rw [splitOn_comma_append hu, List.mapM_cons] at h
    obtain ⟨c, hc, h⟩ := Option.bind_eq_some_iff.mp h
    obtain ⟨cs', hcs', h⟩ := Option.bind_eq_some_iff.mp h
    obtain rfl : c :: cs' = cs := Option.some.inj h
    obtain ⟨gap, sp, rfl, rfl⟩ := exists_spaced_of_parse? hc hu hsemi.1 hline.1
    obtain ⟨gap', s, rfl, rfl⟩ := ih r.length (by simp; omega) hcs' hsemi.2.2 hline.2.2 rfl
    exact ⟨gap, .more sp gap' s, by simp [Series.body], rfl⟩
  · rw [splitOn_comma_of_not_mem hcomma, List.mapM_cons] at h
    obtain ⟨c, hc, h⟩ := Option.bind_eq_some_iff.mp h
    obtain rfl : [c] = cs := Option.some.inj h
    obtain ⟨gap, sp, rfl, rfl⟩ := exists_spaced_of_parse? hc hcomma hsemi hline
    exact ⟨gap, .last sp, rfl, rfl⟩

theorem exists_series_of_parseAll? {t : Text} {cs : List Clause} (h : parseAll? t = some cs)
    (hline : '\n' ∉ t) : ∃ (gap : Gap) (s : Series), t = gap.text ++ s.text ∧ s.clauses = cs := by
  obtain ⟨body, rfl, hsemi, hcs⟩ := parseAll?_eq_some h
  rw [List.mem_append, not_or] at hline
  obtain ⟨gap, s, rfl, hs⟩ := exists_series_of_mapM hcs hsemi hline.1
  exact ⟨gap, s, by rw [Series.text, List.append_assoc], hs⟩

/-! ## Repeated names -/

/-- No two clauses give a value to the same name. -/
def Distinct (cs : List Clause) : Prop := (cs.map (·.name)).Nodup

/-- The name `x` is the first that repeats an earlier one. -/
def FirstRepeat (cs : List Clause) (x : Text) : Prop :=
  ∃ before c after, cs = before ++ c :: after ∧ c.name = x ∧ Distinct before ∧
    ∃ b ∈ before, b.name = x

theorem firstRepeated_eq_none_iff {seen : List Text} {cs : List Clause} :
    firstRepeated seen cs = none ↔ Distinct cs ∧ ∀ c ∈ cs, c.name ∉ seen := by
  induction cs generalizing seen with
  | nil => simp [firstRepeated, Distinct]
  | cons c cs ih =>
      rw [firstRepeated]
      split
      · next hseen =>
        have hmem : c.name ∈ seen := by simpa using hseen
        simp [hmem]
      · next hseen =>
        have hnew : c.name ∉ seen := by simpa using hseen
        rw [ih]
        simp only [Distinct, List.map_cons, List.nodup_cons, List.mem_map, List.mem_cons,
          forall_eq_or_imp, not_or, not_exists, not_and]
        constructor
        · rintro ⟨hnodup, hcs⟩
          exact ⟨⟨fun a ha => (hcs a ha).1, hnodup⟩, hnew, fun a ha => (hcs a ha).2⟩
        · rintro ⟨⟨hne, hnodup⟩, _, hcs⟩
          exact ⟨hnodup, fun a ha => ⟨hne a ha, hcs a ha⟩⟩

/-- Either the names are distinct, or one of them is the first that repeats another. -/
theorem firstRepeated_cases (cs : List Clause) :
    (Distinct cs ∧ firstRepeated [] cs = none) ∨
      ∃ x, FirstRepeat cs x ∧ firstRepeated [] cs = some x := by
  cases hrep : firstRepeated [] cs with
  | none => exact Or.inl ⟨(firstRepeated_eq_none_iff.mp hrep).1, rfl⟩
  | some x =>
      obtain ⟨before, c, after, hcs, hc, hbefore, hx⟩ := exists_append_of_firstRepeated hrep
      have hdistinct := (firstRepeated_eq_none_iff.mp hbefore).1
      exact Or.inr ⟨x, ⟨before, c, after, hcs, hc, hdistinct, hx.resolve_left (by simp)⟩, rfl⟩

end Clause

/-! ## Assignments -/

namespace Assignment

theorem parse?_text (s : Clause.Series) :
    parse? s.text = if s.clauses.all (·.value.isSome) then some s.clauses else none := by
  obtain ⟨a, r, hs, ha⟩ := s.exists_text_eq_cons
  have hhead : s.text.head?.any isBlank = false := by rw [hs]; exact ha
  have hequals := s.all_equals_text .empty
  rw [show Gap.empty.text ++ s.text = s.text from rfl] at hequals
  rw [parse?, hhead, hequals, s.parseAll?_text, Bool.false_or]
  cases s.clauses.all (·.value.isSome) <;> rfl

theorem parse?_text_of_values {s : Clause.Series} (h : ∀ c ∈ s.clauses, c.value.isSome) :
    parse? s.text = some s.clauses := by
  rw [parse?_text, if_pos (List.all_eq_true.mpr h)]

theorem exists_series {line : Text} {cs : List Clause} (h : parse? line = some cs)
    (hline : '\n' ∉ line) :
    ∃ s : Clause.Series, s.text = line ∧ s.clauses = cs ∧ ∀ c ∈ cs, c.value.isSome := by
  have hhead := head?_of_parse? h
  obtain ⟨gap, s, rfl, hs⟩ := Clause.exists_series_of_parseAll? (parseAll?_of_parse? h) hline
  -- A line that does not begin with white space begins with the series.
  have hgap : gap.text = [] := by
    cases hg : gap.text with
    | nil => rfl
    | cons a g =>
        have ha : isBlank a = true := List.all_eq_true.mp gap.blank a (by simp [hg])
        rw [hg, List.cons_append, List.head?_cons, Option.any_some, ha] at hhead
        exact absurd hhead (by decide)
  rw [hgap, List.nil_append] at h ⊢
  rw [parse?_text] at h
  split at h
  · next hall =>
    obtain rfl := Option.some.inj h
    exact ⟨s, rfl, rfl, List.all_eq_true.mp hall⟩
  · simp at h

end Assignment

/-! ## Declarations -/

namespace Declarator

theorem type?_keyword {t : Ty} (ht : t ∈ Ty.declarable) (s : Text) :
    type? (t.keyword ++ s) = some (t, s) := by
  simp only [Ty.declarable, List.mem_cons, List.not_mem_nil, or_false] at ht
  rcases ht with rfl | rfl | rfl | rfl | rfl <;> rfl

theorem parse?_final {t : Ty} (ht : t ∈ Ty.declarable) (gap : WideGap) (s : Text) :
    parse? ("final".toList ++ (gap.text ++ (t.keyword ++ s))) = some (⟨true, t⟩, s) := by
  obtain ⟨c, w, hk, hb, _⟩ := t.keyword_eq_cons
  have hstart : trimStart (t.keyword ++ s) = t.keyword ++ s := by
    rw [hk]
    exact trimStart_cons hb _
  rw [parse?, after?_eq_some_iff.mpr rfl, Option.bind_some, gap.afterGap?_append, hstart]
  simp only [type?_keyword ht, Option.map_some]

end Declarator

namespace Declaration

/-- A declaration and the white space between its tokens.  If it begins with the word `final`,
there is white space after that word. -/
structure Spaced where
  final? : Option WideGap
  ty : Ty
  declarable : ty ∈ Ty.declarable
  gap : WideGap
  series : Clause.Series

namespace Spaced

def declaration (d : Spaced) : Declaration := ⟨⟨d.final?.isSome, d.ty⟩, d.series.clauses⟩

/-- The word `final` and what separates it from the type. -/
def finalText (d : Spaced) : Text :=
  match d.final? with
  | none => []
  | some gap => "final".toList ++ gap.text

def text (d : Spaced) : Text :=
  d.finalText ++ (d.ty.keyword ++ (d.gap.text ++ d.series.text))

theorem parse?_declarator (d : Spaced) :
    Declarator.parse? d.text = some (d.declaration.declarator, d.gap.text ++ d.series.text) := by
  obtain ⟨final?, ty, ht, gap, series⟩ := d
  cases final? with
  | none => exact Declarator.parse?_keyword ht _
  | some final =>
      rw [text, finalText, List.append_assoc]
      exact Declarator.parse?_final ht final _

theorem oneLine_text (d : Spaced) : '\n' ∉ d.text := by
  have hkeyword : '\n' ∉ d.ty.keyword := by cases d.ty <;> decide
  have hfinal : '\n' ∉ d.finalText := by
    rw [finalText]
    split
    · simp
    · next gap _ => simp [gap.oneLine]
  simp [text, hfinal, hkeyword, d.gap.oneLine, d.series.oneLine_text]

/-- The declaration is read back. -/
theorem parse?_text (d : Spaced) : parse? d.text = some d.declaration := by
  rw [parse?_eq, d.parse?_declarator, Option.bind_some]
  simp only [d.gap.afterGap?_append, d.series.trimStart_text, Option.bind_some,
    d.series.parseAll?_text, Option.map_some]
  rfl

end Spaced

/-- What follows the type is white space and the series. -/
theorem exists_series_after_gap {g t : Text} {cs : List Clause} (hne : g ≠ [])
    (hg : isBlankText g) (h : Clause.parseAll? t = some cs) (hline : '\n' ∉ g ++ t) :
    ∃ (gap : WideGap) (series : Clause.Series),
      g ++ t = gap.text ++ series.text ∧ series.clauses = cs := by
  rw [List.mem_append, not_or] at hline
  obtain ⟨gap, series, rfl, hcs⟩ := Clause.exists_series_of_parseAll? h hline.2
  refine ⟨⟨⟨g ++ gap.text, ?_, ?_⟩, ?_⟩, series, by simp, hcs⟩
  · rw [isBlankText, List.all_append, Bool.and_eq_true]
    exact ⟨hg, gap.blank⟩
  · rw [List.mem_append]
    exact not_or.mpr ⟨hline.1, gap.oneLine⟩
  · simp [hne]

theorem exists_spaced {line : Text} {d : Declaration} (h : parse? line = some d)
    (hline : '\n' ∉ line) : ∃ s : Spaced, s.text = line ∧ s.declaration = d := by
  obtain ⟨declarator, cs⟩ := d
  obtain ⟨s, t, hd, ht, hcs⟩ := parse?_eq_some h
  obtain ⟨g, hne, hg, rfl⟩ := exists_append_of_afterGap? ht
  have hty := Declarator.mem_declarable_of_parse? hd
  rcases Declarator.parse?_cases hd with ⟨hfinal, u, hu, hgap⟩ | ⟨hfinal, rfl⟩
  · obtain rfl := after?_eq_some_iff.mp hu
    obtain ⟨g', hne', hg', rfl⟩ := exists_append_of_afterGap? hgap
    simp only [List.mem_append, not_or] at hline
    obtain ⟨gap, series, htext, rfl⟩ :=
      exists_series_after_gap hne hg hcs (by simpa using hline.2.2.2)
    refine ⟨⟨some ⟨⟨g', hg', hline.2.1⟩, hne'⟩, declarator.ty, hty, gap, series⟩, ?_, ?_⟩
    · simp [Spaced.text, Spaced.finalText, htext]
    · simp [Spaced.declaration, ← hfinal]
  · rw [List.mem_append, not_or] at hline
    obtain ⟨gap, series, htext, rfl⟩ := exists_series_after_gap hne hg hcs hline.2
    refine ⟨⟨none, declarator.ty, hty, gap, series⟩, ?_, ?_⟩
    · rw [Spaced.text, htext]
      rfl
    · simp [Spaced.declaration, ← hfinal]

end Declaration

/-! ## Lines that are read -/

namespace Env

/-- The clauses of a declaration take effect, unless a name is repeated. -/
theorem declareLine_of_parse? {e : Env} {pass : Pass} {line : Text} {d : Declaration}
    (h : e.isGlobal = false ∨ pass = .survey) (hd : Declaration.parse? line = some d) :
    (Clause.Distinct d.clauses ∧
        e.declareLine pass line = Outcome.each (declareClause d.declarator) e d.clauses) ∨
      ∃ x, Clause.FirstRepeat d.clauses x ∧
        e.declareLine pass line = .fail e (.duplicateInStatement x) := by
  have hpass : (e.isGlobal && decide (pass = .inspection)) = false := by
    rcases h with h | rfl <;> simp_all
  rcases Clause.firstRepeated_cases d.clauses with ⟨hdistinct, hrep⟩ | ⟨x, hx, hrep⟩
  · exact Or.inl ⟨hdistinct, by simp [declareLine_eq, hpass, hd, hrep]⟩
  · exact Or.inr ⟨x, hx, by simp [declareLine_eq, hpass, hd, hrep]⟩

/-- The clauses of an assignment take effect, unless a name is repeated. -/
theorem assignLine_of_parse? {e : Env} {line : Text} {cs : List Clause}
    (h : Assignment.parse? line = some cs) :
    (Clause.Distinct cs ∧ e.assignLine line = Outcome.each (assignClause line) e cs) ∨
      ∃ x, Clause.FirstRepeat cs x ∧
        e.assignLine line = .fail e (.duplicateInStatement x) := by
  rcases Clause.firstRepeated_cases cs with ⟨hdistinct, hrep⟩ | ⟨x, hx, hrep⟩
  · exact Or.inl ⟨hdistinct, by simp [assignLine, h, hrep]⟩
  · exact Or.inr ⟨x, hx, by simp [assignLine, h, hrep]⟩

end Env

/-! ## Faults that do not arise -/

namespace Env

variable {e : Env} {fault : Fault}

theorem fault_of_onMethodFrame {op : Frame → Outcome Fault Frame} {fs : List Frame}
    (h : (onMethodFrame op fs).failure = some fault) : ∃ f, (op f).failure = some fault := by
  induction fs with
  | nil => simp [onMethodFrame, Outcome.ok] at h
  | cons f outer ih =>
      cases outer with
      | nil => exact ⟨f, h⟩
      | cons f' outer => exact ih h

theorem fault_of_assign {x : Text} (h : (e.assign x).failure = some fault) :
    fault = .variableNotDeclared x ∨ fault = .variableAlreadyDeclared x := by
  unfold assign at h
  split at h
  · exact Or.inl (Option.some.inj h).symm
  split at h
  · simp [Outcome.ok] at h
  split at h
  · obtain ⟨f, hf⟩ := fault_of_onMethodFrame h
    exact Or.inr (Frame.fault_of_declare hf)
  split at h <;> simp [Outcome.ok] at h

/-- A value is at fault for its syntax, or for what it names. -/
theorem fault_of_checkValue {target : Ty} {v : Text} (h : e.checkValue target v = .error fault) :
    (∀ t, fault ≠ .unknownType t) ∧ ∀ line, fault = .assignmentSyntax line → line = v := by
  unfold checkValue at h
  split at h
  · split at h
    · simp at h
    · cases h
      simp
  split at h
  · cases h
    simp
  split at h
  · cases h
    simp
  split at h
  · cases h
    simp
  split at h
  · simp at h
  · cases h
    simp

/-- No clause of a declaration finds a fault with the type. -/
theorem declareClause_ne_unknownType (d : Declarator) (c : Clause) (t : Text) :
    (declareClause d e c).failure ≠ some (.unknownType t) := by
  intro h
  unfold declareClause at h
  split at h
  · cases h
  split at h
  · cases h
  split at h
  · split at h
    · cases h
    · cases fault_of_declare h
  · rcases Outcome.failure_require h with h | h
    · exact (fault_of_checkValue h).1 t rfl
    · cases fault_of_declare h

theorem declareLine_ne_unknownType (pass : Pass) (line t : Text) :
    (e.declareLine pass line).failure ≠ some (.unknownType t) := by
  intro h
  rw [declareLine_eq] at h
  split at h
  · cases h
  split at h
  · cases h
  split at h
  · cases h
  next d _ _ _ =>
  exact Outcome.failure_each (Q := (· ≠ .unknownType t))
    (fun _ c _ hstep hf => declareClause_ne_unknownType d.declarator c t (hf ▸ hstep)) h rfl

/-- The syntax of a clause that has a value is at fault for that value only. -/
theorem eq_value_of_assignClause {line line' v : Text} {c : Clause} (hv : c.value = some v)
    (h : (assignClause line e c).failure = some (.assignmentSyntax line')) : line' = v := by
  unfold assignClause at h
  rw [hv] at h
  split at h
  · cases h
  split at h
  · cases h
  rcases Outcome.failure_require h with h | h
  · exact (fault_of_checkValue h).2 line' rfl
  · rcases fault_of_assign h with h | h <;> cases h

/-- No clause of an assignment that is read lacks its value. -/
theorem assignLine_text_ne_assignmentSyntax {s : Clause.Series}
    (hs : ∀ c ∈ s.clauses, c.value.isSome) :
    (e.assignLine s.text).failure ≠ some (.assignmentSyntax s.text) := by
  intro h
  rcases assignLine_of_parse? (Assignment.parse?_text_of_values hs) with
    ⟨-, hline⟩ | ⟨x, -, hline⟩
  · rw [hline] at h
    obtain ⟨before, c, after, t, hcs, -, hstep⟩ := Outcome.exists_append_of_failure_each h
    rw [hstep] at h
    have hc : c ∈ s.clauses := by simp [hcs]
    obtain ⟨v, hv⟩ := Option.isSome_iff_exists.mp (hs c hc)
    have htext := eq_value_of_assignClause hv h
    -- The value ends before the semicolon of the line.
    have hwritable := (Clause.Series.exists_clauses_iff.mp ⟨s, rfl⟩).2 c hc
    have hsemi := (hwritable.value v hv).semicolon
    rw [← htext] at hsemi
    exact hsemi (by simp [Clause.Series.text])
  · rw [hline] at h
    cases h

end Env

/-! ## Main results -/

/-- The declarations and the assignments of one line that can be read are those that can be
written, and reading them gives the parts that were written: the finality, the type and the
clauses in their order.  A list of clauses can be written if it is not empty and each of its
clauses can.  Once a line is read, the first name that repeats an earlier one is found before any
clause takes effect.  An assignment that is read has no clause without a value, and the type of a
declaration is always known. -/
theorem statements_read_as_written :
    (∀ line d, '\n' ∉ line ∧ Declaration.parse? line = some d ↔
      ∃ s : Declaration.Spaced, s.text = line ∧ s.declaration = d) ∧
    (∀ line cs, '\n' ∉ line ∧ Assignment.parse? line = some cs ↔
      ∃ s : Clause.Series, s.text = line ∧ s.clauses = cs ∧ ∀ c ∈ cs, c.value.isSome) ∧
    (∀ cs, (∃ s : Clause.Series, s.clauses = cs) ↔ cs ≠ [] ∧ ∀ c ∈ cs, c.Writable) ∧
    (∀ (e : Env) (pass : Pass) (s : Declaration.Spaced), e.isGlobal = false ∨ pass = .survey →
      (Clause.Distinct s.series.clauses ∧ e.declareLine pass s.text =
          Outcome.each (Env.declareClause s.declaration.declarator) e s.series.clauses) ∨
        ∃ x, Clause.FirstRepeat s.series.clauses x ∧
          e.declareLine pass s.text = .fail e (.duplicateInStatement x)) ∧
    (∀ (e : Env) (s : Clause.Series), (∀ c ∈ s.clauses, c.value.isSome) →
      (Clause.Distinct s.clauses ∧
          e.assignLine s.text = Outcome.each (Env.assignClause s.text) e s.clauses) ∨
        ∃ x, Clause.FirstRepeat s.clauses x ∧
          e.assignLine s.text = .fail e (.duplicateInStatement x)) ∧
    (∀ (e : Env) (line : Text), '\n' ∉ line → Assignment.parse? line ≠ none →
      (e.assignLine line).failure ≠ some (.assignmentSyntax line)) ∧
    ∀ (e : Env) (pass : Pass) (line t : Text),
      (e.declareLine pass line).failure ≠ some (.unknownType t) := by
  refine ⟨fun line d => ⟨fun h => Declaration.exists_spaced h.2 h.1, ?_⟩,
    fun line cs => ⟨fun h => Assignment.exists_series h.2 h.1, ?_⟩,
    fun cs => Clause.Series.exists_clauses_iff,
    fun e pass s h => Env.declareLine_of_parse? h s.parse?_text,
    fun e s h => Env.assignLine_of_parse? (Assignment.parse?_text_of_values h),
    fun e line hline hparse => ?_,
    fun e pass line t => Env.declareLine_ne_unknownType pass line t⟩
  · rintro ⟨s, rfl, rfl⟩
    exact ⟨s.oneLine_text, s.parse?_text⟩
  · rintro ⟨s, rfl, rfl, hs⟩
    exact ⟨s.oneLine_text, Assignment.parse?_text_of_values hs⟩
  · obtain ⟨cs, hcs⟩ := Option.ne_none_iff_exists'.mp hparse
    obtain ⟨s, rfl, rfl, hs⟩ := Assignment.exists_series hcs hline
    exact Env.assignLine_text_ne_assignmentSyntax hs

def Gap.space : Gap := ⟨[' '], rfl, by decide⟩

/-- The clause that gives the name `x` the value `v`, with the same white space everywhere. -/
def Clause.Spaced.single (x v : Char) (hx : Name.isVariable [x])
    (hv : isBlank v = false ∧ ',' ≠ v ∧ ';' ≠ v) (gap : Gap) : Clause.Spaced :=
  have hbreak : '\n' ≠ v := fun h => absurd hv.1 (h ▸ by decide)
  have hvalue : Text.IsValue [v] :=
    ⟨⟨⟨v, [], rfl, hv.1⟩, [], v, rfl, hv.1⟩, by simp [hv.2.1], by simp [hv.2.2], by simp [hbreak]⟩
  ⟨⟨[x], some [v]⟩, ⟨hx, fun _ h => Option.some.inj h ▸ hvalue⟩, gap, gap, gap⟩

/-- The line `a = 5 ,a=b;`. -/
def sampleSeries : Clause.Series :=
  .more (.single 'a' '5' (by decide) (by decide) .space) .empty
    (.last (.single 'a' 'b' (by decide) (by decide) .empty))

theorem sampleSeries_repeats_name :
    sampleSeries.text = "a = 5 ,a=b;".toList ∧
      Assignment.parse? sampleSeries.text =
        some [⟨"a".toList, some "5".toList⟩, ⟨"a".toList, some "b".toList⟩] ∧
      (∃ x, Clause.FirstRepeat sampleSeries.clauses x ∧
        Env.empty.assignLine sampleSeries.text = .fail .empty (.duplicateInStatement x)) ∧
      (Env.empty.assignLine sampleSeries.text).failure ≠
        some (.assignmentSyntax sampleSeries.text) := by
  obtain ⟨-, hassign, -, -, hrepeat, hsyntax, -⟩ := statements_read_as_written
  have hvalues : ∀ c ∈ sampleSeries.clauses, c.value.isSome := by decide
  have hread := (hassign sampleSeries.text sampleSeries.clauses).mpr
    ⟨sampleSeries, rfl, rfl, hvalues⟩
  have hdistinct : ¬ Clause.Distinct sampleSeries.clauses := by unfold Clause.Distinct; decide
  refine ⟨rfl, hread.2, ?_, hsyntax .empty _ hread.1 (by simp [hread.2])⟩
  exact (hrepeat .empty sampleSeries hvalues).resolve_left fun h => hdistinct h.1

end SJava
