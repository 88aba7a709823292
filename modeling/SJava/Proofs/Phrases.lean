/-
Lines as they are written.

A literal is a text between quotes or it has no marks but signs and a point
(`Literal.quoted_or_plain`).  A line with one clause and a call are put together from names
and values here, and read back.  Reading a clause cuts it at every comma, also between
quotes, and reading the arguments of a call does not (`Text.cutItems_intercalate`).
-/
import SJava.Proofs.Checks
import SJava.Proofs.Clauses

namespace SJava

open Text

/-! ## White space around a text -/

/-- The text is not empty, and white space neither begins nor ends it. -/
structure Text.Bare (s : Text) : Prop where
  first : ∃ c r, s = c :: r ∧ isBlank c = false
  last : ∃ r c, s = r ++ [c] ∧ isBlank c = false

namespace Text.Bare

variable {s : Text}

theorem ne_nil (h : s.Bare) : s ≠ [] := by
  obtain ⟨c, r, rfl, _⟩ := h.first
  exact List.cons_ne_nil c r

theorem isBlankText_eq_false (h : s.Bare) : isBlankText s = false := by
  obtain ⟨c, r, rfl, hc⟩ := h.first
  rw [isBlankText, List.all_cons, hc, Bool.false_and]

theorem trimStart_append (h : s.Bare) (u : Text) : trimStart (s ++ u) = s ++ u := by
  obtain ⟨c, r, rfl, hc⟩ := h.first
  exact trimStart_cons hc (r ++ u)

theorem trimEnd_eq (h : s.Bare) : trimEnd s = s := by
  obtain ⟨r, c, rfl, hc⟩ := h.last
  exact trimEnd_concat hc r

theorem trim_eq (h : s.Bare) : trim s = s := by
  have hfirst := h.trimStart_append []
  rw [List.append_nil] at hfirst
  rw [trim, hfirst, h.trimEnd_eq]

/-- A text without white space. -/
theorem of_forall (hs : s ≠ []) (h : ∀ c ∈ s, isBlank c = false) : s.Bare := by
  constructor
  · obtain ⟨c, r, rfl⟩ := List.exists_cons_of_ne_nil hs
    exact ⟨c, r, rfl, h c List.mem_cons_self⟩
  · refine ⟨s.dropLast, s.getLast hs, (List.dropLast_append_getLast hs).symm, ?_⟩
    exact h _ (List.getLast_mem hs)

end Text.Bare

theorem isBlank_eq_false_of_isWord {c : Char} (h : isWord c) : isBlank c = false := by
  cases hb : isBlank c with
  | false => rfl
  | true =>
      rw [isWord_eq_false_of_isBlank hb] at h
      exact absurd h (by decide)

theorem bare_of_isWord {w : Text} (hne : w ≠ []) (h : w.all isWord) : w.Bare :=
  .of_forall hne fun c hc => isBlank_eq_false_of_isWord (List.all_eq_true.mp h c hc)

theorem not_mem_of_isWord {w : Text} (h : w.all isWord) {c : Char} (hc : isWord c = false) :
    c ∉ w := by
  intro hm
  rw [List.all_eq_true.mp h c hm] at hc
  exact absurd hc (by decide)

theorem isBlankThenLine_of_not_mem {s : Text} (hs : s ≠ []) (h : '\n' ∉ s) :
    isBlankThenLine s = true := by
  cases s with
  | nil => exact absurd rfl hs
  | cons c s =>
      have hall : (c :: s).all (· != '\n') = true := List.all_eq_true.mpr fun d hd => by
        simpa using fun hn : d = '\n' => h (hn ▸ hd)
      rw [isBlankThenLine, hall]
      rfl

/-- White space at the end of a text reaches no further than to the last mark. -/
theorem trimEnd_append_cons {c : Char} (hc : isBlank c = false) (u s : Text) :
    trimEnd (u ++ c :: s) = u ++ trimEnd (c :: s) := by
  have hne : ((c :: s).reverse.dropWhile isBlank).isEmpty = false := by
    rw [Bool.eq_false_iff, Ne, List.isEmpty_iff, List.dropWhile_eq_nil_iff]
    intro h
    rw [h c (by simp)] at hc
    exact absurd hc (by decide)
  rw [trimEnd, List.reverse_append, List.dropWhile_append, hne, if_neg Bool.false_ne_true,
    List.reverse_append, List.reverse_reverse]
  rfl

theorem trimEnd_cons {c : Char} (hc : isBlank c = false) (s : Text) :
    trimEnd (c :: s) = c :: trimEnd s := by
  rw [trimEnd, List.reverse_cons, List.dropWhile_append]
  split
  · next hempty =>
    rw [trimEnd, List.isEmpty_iff.mp hempty, List.dropWhile_cons_of_neg (by simp [hc])]
    rfl
  · rw [List.reverse_append]
    rfl

/-- What is left of a text that begins with a mark begins with it too. -/
theorem exists_trimEnd_cons {c : Char} (hc : isBlank c = false) (s : Text) :
    ∃ r, trimEnd (c :: s) = c :: r ∧ r <+: s :=
  ⟨trimEnd s, trimEnd_cons hc s, trimEnd_prefix s⟩

/-! ## Names -/

namespace Name

theorem bare_of_isVariable {g : Text} (h : isVariable g) : g.Bare := by
  refine bare_of_isWord ?_ (all_isWord_of_isVariable h)
  rintro rfl
  exact absurd h (by decide)

theorem not_mem_of_isVariable {g : Text} (h : isVariable g) {c : Char}
    (hc : isWord c = false) : c ∉ g :=
  not_mem_of_isWord (all_isWord_of_isVariable h) hc

end Name

/-! ## Literals -/

namespace Literal

theorem eq_unsigned_or (v : Text) :
    v = unsigned v ∨ v = '+' :: unsigned v ∨ v = '-' :: unsigned v := by
  unfold unsigned
  split <;> simp

theorem unsigned_of_isDouble {v : Text} (h : isDouble v) :
    unsigned v ≠ [] ∧ ∀ c ∈ unsigned v, isDigit c ∨ c = '.' := by
  have hsplit : (unsigned v).takeWhile isDigit ++ (unsigned v).dropWhile isDigit = unsigned v :=
    List.takeWhile_append_dropWhile
  have hwhole : ∀ c ∈ (unsigned v).takeWhile isDigit, isDigit c ∨ c = '.' := fun c hc =>
    Or.inl (List.mem_takeWhile_imp hc)
  unfold isDouble at h
  rw [← hsplit]
  simp only at h
  split at h
  · next hrest =>
    rw [hrest, List.append_nil]
    exact ⟨by simpa using h, hwhole⟩
  · next c fraction hrest =>
    simp only [Bool.and_eq_true, beq_iff_eq, List.all_eq_true] at h
    obtain ⟨⟨rfl, hfraction⟩, _⟩ := h
    rw [hrest]
    refine ⟨by simp, fun c hc => ?_⟩
    rcases List.mem_append.mp hc with hc | hc
    · exact hwhole c hc
    rcases List.mem_cons.mp hc with rfl | hc
    · exact Or.inr rfl
    · exact Or.inl (hfraction c hc)

/-- The characters of numbers and of the two constants. -/
def isPlain (c : Char) : Bool := isWord c || c == '+' || c == '-' || c == '.'

theorem not_isPlain {c : Char} (h : c.toNat < 128 ∧ c.isAlphanum = false ∧ c ≠ '_')
    (hc : c ∉ ['+', '-', '.']) : ¬ isPlain c := by
  simp_all [isPlain, isWord_eq_false_of_ascii h]

theorem isPlain_of_isDouble {v : Text} (h : isDouble v) : v ≠ [] ∧ ∀ c ∈ v, isPlain c := by
  obtain ⟨hne, hall⟩ := unsigned_of_isDouble h
  have hunsigned : ∀ c ∈ unsigned v, isPlain c := by
    intro c hc
    rcases hall c hc with hd | rfl
    · simp [isPlain, isWord_of_isDigit hd]
    · simp [isPlain]
  rcases eq_unsigned_or v with hv | hv | hv <;> rw [hv]
  · exact ⟨hne, hunsigned⟩
  · exact ⟨by simp, List.forall_mem_cons.mpr ⟨by simp [isPlain], hunsigned⟩⟩
  · exact ⟨by simp, List.forall_mem_cons.mpr ⟨by simp [isPlain], hunsigned⟩⟩

/-- A literal stands between quotes that it has none of inside, or it is a number or one of
the two constants. -/
theorem quoted_or_plain {v : Text} {t : Ty} (h : fits v t) :
    (∃ q s, (q = '"' ∨ q = '\'') ∧ q ∉ s ∧ v = q :: (s ++ [q])) ∨
      v ≠ [] ∧ ∀ c ∈ v, isPlain c := by
  cases t with
  | string =>
      obtain ⟨s, hs, rfl⟩ := isString_iff.mp h
      exact Or.inl ⟨'"', s, Or.inl rfl, hs, rfl⟩
  | char =>
      obtain ⟨c, hc, rfl⟩ := isChar_iff.mp h
      exact Or.inl ⟨'\'', [c], Or.inr rfl, by simpa using Ne.symm hc, rfl⟩
  | int => exact Or.inr (isPlain_of_isDouble (isDouble_of_isInt h))
  | double => exact Or.inr (isPlain_of_isDouble h)
  | boolean =>
      simp only [fits, isBoolean, Bool.or_eq_true, beq_iff_eq] at h
      rcases h with (rfl | rfl) | h
      · exact Or.inr ⟨by decide, List.all_eq_true.mp (by decide)⟩
      · exact Or.inr ⟨by decide, List.all_eq_true.mp (by decide)⟩
      · exact Or.inr (isPlain_of_isDouble h)
  | unknown => exact absurd h (by simp [fits])

theorem isBlank_eq_false_of_isPlain {c : Char} (h : isPlain c) : isBlank c = false := by
  simp only [isPlain, Bool.or_eq_true, beq_iff_eq] at h
  rcases h with ((h | rfl) | rfl) | rfl
  · exact isBlank_eq_false_of_isWord h
  all_goals decide

theorem bare_of_fits {v : Text} {t : Ty} (h : fits v t) : v.Bare := by
  rcases quoted_or_plain h with ⟨q, s, hq, _, rfl⟩ | ⟨hne, hplain⟩
  · have hb : isBlank q = false := by rcases hq with rfl | rfl <;> decide
    exact ⟨⟨q, _, rfl, hb⟩, q :: s, q, rfl, hb⟩
  · exact .of_forall hne fun c hc => isBlank_eq_false_of_isPlain (hplain c hc)

theorem type_ne_unknown_of_fits {v : Text} {t : Ty} (h : fits v t) : type v ≠ .unknown := by
  intro hu
  unfold type at hu
  split at hu
  · cases hu
  split at hu
  · cases hu
  split at hu
  · cases hu
  split at hu
  · cases hu
  split at hu
  · cases hu
  · cases t <;> simp_all [fits]

/-- No number begins with a quote. -/
theorem isDouble_cons_quote {q : Char} (hq : q = '"' ∨ q = '\'') (s : Text) :
    isDouble (q :: s) = false := by
  rw [Bool.eq_false_iff]
  intro hd
  have hplain := (isPlain_of_isDouble hd).2 q List.mem_cons_self
  rcases hq with rfl | rfl <;> exact absurd hplain (not_isPlain (by decide) (by decide))

/-- A literal that begins with a quote has it again. -/
theorem mem_of_type_ne_unknown {q : Char} {s : Text} (hq : q = '"' ∨ q = '\'')
    (h : type (q :: s) ≠ .unknown) : q ∈ s := by
  have hdouble := isDouble_cons_quote hq s
  have hint := isInt_eq_false hdouble
  have hbool : isBoolean (q :: s) = false := by
    rcases hq with rfl | rfl <;> simp [isBoolean]
  unfold type at h
  split at h
  · next hstring =>
    obtain ⟨r, _, heq⟩ := isString_iff.mp hstring
    obtain ⟨rfl, rfl⟩ := List.cons.inj heq
    simp
  split at h
  · next hi => simp [hint] at hi
  split at h
  · next hchar =>
    obtain ⟨c, _, heq⟩ := isChar_iff.mp hchar
    obtain ⟨rfl, rfl⟩ := List.cons.inj heq
    simp
  · simp [hbool, hdouble] at h

/-- Up to its first comma, a literal with a comma is a quote that stays open. -/
theorem exists_open_of_comma {v : Text} {t : Ty} (h : fits v t) (hv : ',' ∈ v) :
    ∃ q s r, (q = '"' ∨ q = '\'') ∧ q ∉ s ∧ ',' ∉ q :: s ∧ v = q :: s ++ ',' :: r := by
  rcases quoted_or_plain h with ⟨q, s, hq, hs, rfl⟩ | ⟨_, hplain⟩
  · have hcomma : ',' ≠ q := by rcases hq with rfl | rfl <;> decide
    have hmem : ',' ∈ s := by simpa [hcomma] using hv
    obtain ⟨u, r, rfl, hu⟩ := List.eq_append_cons_of_mem hmem
    refine ⟨q, u, r ++ [q], hq, fun hqu => hs (List.mem_append_left _ hqu), ?_, by simp⟩
    simp [hcomma, hu]
  · exact absurd (hplain ',' hv) (not_isPlain (by decide) (by decide))

end Literal

/-! ## Clauses -/

namespace Clause

theorem parse?_name {g gap : Text} (hg : Name.isVariable g) (hgap : isBlankText gap) :
    parse? (g ++ gap) = some ⟨g, none⟩ := by
  have hword := takeWhile_isWord_append (s := []) (Name.all_isWord_of_isVariable hg) (by simp)
  rw [List.append_nil] at hword
  have htrim : trim (g ++ gap) = g := by
    have hbare := Name.bare_of_isVariable hg
    rw [trim, hbare.trimStart_append, trimEnd_append hgap, hbare.trimEnd_eq]
  simp only [parse?, htrim, hword, hg, if_true]
  rfl

/-- The value of a clause begins after the equals sign, and white space around it is not part of
it. -/
theorem parse?_gaps {g left right s : Text} {c : Char} (hg : Name.isVariable g)
    (hleft : isBlankText left) (hright : isBlankText right) (hc : isBlank c = false)
    (hline : '\n' ∉ c :: s) :
    parse? (g ++ (left ++ '=' :: (right ++ c :: s))) = some ⟨g, some (trimEnd (c :: s))⟩ := by
  obtain ⟨s', hs', hpre⟩ := exists_trimEnd_cons hc s
  have htrim : trim (g ++ (left ++ '=' :: (right ++ c :: s))) =
      g ++ (left ++ '=' :: (right ++ c :: s')) := by
    have hassoc (r : Text) :
        g ++ (left ++ '=' :: (right ++ r)) = (g ++ (left ++ '=' :: right)) ++ r := by simp
    rw [trim, (Name.bare_of_isVariable hg).trimStart_append, hassoc, hassoc,
      trimEnd_append_cons hc, hs']
  have hword := takeWhile_isWord_gap (c := '=') (Name.all_isWord_of_isVariable hg) hleft
    (isWord_eq_false_of_ascii (by decide)) (right ++ c :: s')
  have hequals : trimStart (left ++ '=' :: (right ++ c :: s')) = '=' :: (right ++ c :: s') := by
    rw [trimStart_append hleft]
    exact trimStart_cons (by decide) _
  have hvalue : trimStart (right ++ c :: s') = c :: s' := by
    rw [trimStart_append hright]
    exact trimStart_cons hc s'
  have hfeed : (c :: s').contains '\n' = false := by
    rw [Bool.eq_false_iff, Ne, List.contains_iff_mem, List.mem_cons]
    rintro (h | h)
    · exact hline (h ▸ List.mem_cons_self)
    · exact hline (List.mem_cons_of_mem c (hpre.subset h))
  simp only [parse?, htrim, hword, hg, if_true, hequals, hvalue, hfeed, hs']
  rfl

theorem parse?_equals {g s : Text} {c : Char} (hg : Name.isVariable g) (hc : isBlank c = false)
    (hline : '\n' ∉ c :: s) :
    parse? (g ++ (" = ".toList ++ c :: s)) = some ⟨g, some (trimEnd (c :: s))⟩ :=
  have hspace : isBlankText [' '] := by decide
  parse?_gaps hg hspace hspace hc hline

theorem parse?_value {g v : Text} {t : Ty} (hg : Name.isVariable g) (hv : Literal.fits v t)
    (hline : '\n' ∉ v) : parse? (g ++ (" = ".toList ++ v)) = some ⟨g, some v⟩ := by
  have hbare := Literal.bare_of_fits hv
  obtain ⟨c, s, rfl, hc⟩ := hbare.first
  rw [parse?_equals hg hc hline, hbare.trimEnd_eq]

theorem parseAll?_eq {c : Text} (hsemi : ';' ∉ c) :
    parseAll? (c ++ [';']) = (c.splitOn ',').mapM parse? := by
  have hbody : c.contains ';' = false := by simpa using hsemi
  rw [parseAll?_eq_mapM, before?_eq_some_iff.mpr rfl, Option.bind_some, hbody]
  rfl

theorem parseAll?_eq_none {c : Text} (hsemi : ';' ∈ c) : parseAll? (c ++ [';']) = none := by
  have hbody : c.contains ';' = true := by simpa using hsemi
  rw [parseAll?_eq_mapM, before?_eq_some_iff.mpr rfl, Option.bind_some, hbody]
  rfl

theorem parseAll?_single {c : Text} (hcomma : ',' ∉ c) (hsemi : ';' ∉ c) :
    parseAll? (c ++ [';']) = (parse? c).map fun clause => [clause] := by
  rw [parseAll?_eq hsemi, splitOn_comma_of_not_mem hcomma]
  cases hc : parse? c <;> simp [hc]

/-- The first clause ends at the first comma. -/
theorem exists_of_parseAll?_comma {c r : Text} (hcomma : ',' ∉ c) {cs : List Clause}
    (h : parseAll? (c ++ ',' :: r ++ [';']) = some cs) :
    ∃ clause cs', parse? c = some clause ∧ cs = clause :: cs' := by
  have hsemi : ';' ∉ c ++ ',' :: r := by
    intro hmem
    rw [parseAll?_eq_none hmem] at h
    exact absurd h (by simp)
  rw [parseAll?_eq hsemi, splitOn_comma_append hcomma, List.mapM_cons] at h
  obtain ⟨clause, hclause, h⟩ := Option.bind_eq_some_iff.mp h
  obtain ⟨cs', _, h⟩ := Option.bind_eq_some_iff.mp h
  exact ⟨clause, cs', hclause, (Option.some.inj h).symm⟩

end Clause

/-- The text `x = v;`. -/
def Clause.equation (x v : Text) : Text := x ++ (" = ".toList ++ v) ++ [';']

namespace Clause

variable {x v : Text} {t : Ty}

theorem trimStart_equation (hx : Name.isVariable x) : trimStart (equation x v) = equation x v := by
  rw [equation, List.append_assoc]
  exact (Name.bare_of_isVariable hx).trimStart_append _

theorem not_mem_equation {c : Char} (hx : Name.isVariable x)
    (h : c.toNat < 128 ∧ c.isAlphanum = false ∧ c ≠ '_') (hc : c ∉ " = ".toList) (hv : c ∉ v) :
    c ∉ x ++ (" = ".toList ++ v) := by
  rw [List.mem_append, List.mem_append]
  exact not_or.mpr ⟨Name.not_mem_of_isVariable hx (isWord_eq_false_of_ascii h),
    not_or.mpr ⟨hc, hv⟩⟩

/-- A literal is read back if it has no comma and no semicolon. -/
theorem parseAll?_equation (hx : Name.isVariable x) (hv : Literal.fits v t) (hcomma : ',' ∉ v)
    (hsemi : ';' ∉ v) (hline : '\n' ∉ v) : parseAll? (equation x v) = some [⟨x, some v⟩] := by
  rw [equation, parseAll?_single (not_mem_equation hx (by decide) (by decide) hcomma)
    (not_mem_equation hx (by decide) (by decide) hsemi), parse?_value hx hv hline]
  rfl

/-- Where a literal with a comma or a semicolon can be read at all, the first value is a quote
that stays open. -/
theorem exists_open_of_parseAll?_equation (hx : Name.isVariable x) (hv : Literal.fits v t)
    (hline : '\n' ∉ v) (hmark : ¬ (',' ∉ v ∧ ';' ∉ v)) {cs : List Clause}
    (h : parseAll? (equation x v) = some cs) :
    ∃ q s cs', (q = '"' ∨ q = '\'') ∧ q ∉ s ∧ cs = ⟨x, some (q :: s)⟩ :: cs' := by
  have hsemi : ';' ∉ v := by
    intro hmem
    have hbody : ';' ∈ x ++ (" = ".toList ++ v) :=
      List.mem_append_right _ (List.mem_append_right _ hmem)
    rw [equation, parseAll?_eq_none hbody] at h
    exact absurd h (by simp)
  have hcomma : ',' ∈ v := Decidable.not_not.mp fun hn => hmark ⟨hn, hsemi⟩
  obtain ⟨q, s, r, hq, hs, hfirst, rfl⟩ := Literal.exists_open_of_comma hv hcomma
  have hblank : isBlank q = false := by rcases hq with rfl | rfl <;> decide
  have hequation : equation x (q :: s ++ ',' :: r) =
      (x ++ (" = ".toList ++ q :: s)) ++ ',' :: r ++ [';'] := by simp [equation]
  rw [hequation] at h
  obtain ⟨clause, cs', hclause, rfl⟩ :=
    exists_of_parseAll?_comma (not_mem_equation hx (by decide) (by decide) hfirst) h
  rw [parse?_equals hx hblank fun hmem => hline (List.mem_append_left _ hmem)] at hclause
  obtain rfl := Option.some.inj hclause
  obtain ⟨s', hs', hpre⟩ := exists_trimEnd_cons hblank s
  exact ⟨q, s', cs', hq, fun hmem => hs (hpre.subset hmem), by rw [hs']⟩

end Clause

/-! ## Declarations -/

theorem Declarator.parse?_keyword {t : Ty} (ht : t ∈ Ty.declarable) (s : Text) :
    Declarator.parse? (t.keyword ++ s) = some (⟨false, t⟩, s) := by
  simp only [Ty.declarable, List.mem_cons, List.not_mem_nil, or_false] at ht
  rcases ht with rfl | rfl | rfl | rfl | rfl <;> rfl

namespace Declaration

theorem parse?_keyword {t : Ty} (ht : t ∈ Ty.declarable) {gap s : Text} (hne : gap ≠ [])
    (hgap : isBlankText gap) (hstart : trimStart s = s) :
    parse? (t.keyword ++ (gap ++ s)) =
      (Clause.parseAll? s).map fun clauses => ⟨⟨false, t⟩, clauses⟩ := by
  have hafter : afterGap? (gap ++ s) = some s := by
    obtain ⟨a, g, rfl⟩ := List.exists_cons_of_ne_nil hne
    simp only [isBlankText, List.all_cons, Bool.and_eq_true] at hgap
    rw [afterGap?_append hgap.1 hgap.2, hstart]
  rw [parse?_eq, Declarator.parse?_keyword ht, Option.bind_some]
  show ((afterGap? (gap ++ s)).bind Clause.parseAll?).map _ = _
  rw [hafter, Option.bind_some]

/-- The line `t g = v;`. -/
def initialized (t : Ty) (g v : Text) : Text :=
  t.keyword ++ (" ".toList ++ (g ++ (" = ".toList ++ v) ++ [';']))

variable {t : Ty} {g v : Text}

theorem parse?_initialized_eq (ht : t ∈ Ty.declarable) (hg : Name.isVariable g) (v : Text) :
    parse? (initialized t g v) =
      (Clause.parseAll? (Clause.equation g v)).map fun clauses => ⟨⟨false, t⟩, clauses⟩ :=
  parse?_keyword ht (by decide) (by decide) (Clause.trimStart_equation hg)

theorem parse?_initialized (ht : t ∈ Ty.declarable) (hg : Name.isVariable g)
    (hv : Literal.fits v t) (hcomma : ',' ∉ v) (hsemi : ';' ∉ v) (hfeed : '\n' ∉ v) :
    parse? (initialized t g v) = some ⟨⟨false, t⟩, [⟨g, some v⟩]⟩ := by
  rw [parse?_initialized_eq ht hg, Clause.parseAll?_equation hg hv hcomma hsemi hfeed]
  rfl

theorem trimStart_initialized (t : Ty) (g v : Text) :
    trimStart (initialized t g v) = initialized t g v := by
  obtain ⟨c, w, hk, hb, _⟩ := t.keyword_eq_cons
  rw [initialized, hk]
  exact trimStart_cons hb _

theorem trim_initialized (t : Ty) (g v : Text) : trim (initialized t g v) = initialized t g v := by
  rw [trim, trimStart_initialized, initialized, ← List.append_assoc, ← List.append_assoc,
    ← List.append_assoc]
  exact trimEnd_concat (by decide) _

theorem of_initialized (ht : t ∈ Ty.declarable) (hg : Name.isVariable g) (hline : '\n' ∉ v) :
    Category.of (initialized t g v) = .variableDeclaration := by
  refine (Category.admits_iff_of_eq (by simp) _).mp ?_
  have hend : trimEnd (" ".toList ++ (g ++ (" = ".toList ++ v) ++ [';'])) =
      " ".toList ++ (g ++ (" = ".toList ++ v) ++ [';']) := by
    rw [← List.append_assoc]
    exact trimEnd_concat (by decide) _
  have hbefore : before? ';' (" ".toList ++ (g ++ (" = ".toList ++ v) ++ [';'])) =
      some (' ' :: (g ++ (" = ".toList ++ v))) := before?_eq_some_iff.mpr rfl
  have hbody : isBlankThenLine (g ++ (" = ".toList ++ v)) = true :=
    isBlankThenLine_of_not_mem (by simp)
      (Clause.not_mem_equation hg (by decide) (by decide) hline)
  show isLine (initialized t g v) = true
  simp only [isLine_eq, trimStart_initialized]
  rw [initialized, Declarator.parse?_keyword ht]
  simp only [hend, hbefore, hbody]
  rfl

/-- A line that looks like a declaration begins with a reserved word. -/
theorem isLine_eq_false {w s : Text} (hw : w.all isWord) (hne : w ≠ [])
    (hfree : Name.isReserved w = false) (hs : ∀ c, s.head? = some c → isWord c = false) :
    isLine (w ++ s) = false := by
  rw [Bool.eq_false_iff]
  intro h
  obtain ⟨d, r, c, u, hd, hr, hc⟩ := exists_of_isLine h
  rw [(bare_of_isWord hne hw).trimStart_append] at hd
  have hword := (takeWhile_isWord_append hw hs).1
  rcases Declarator.parse?_eq_some hd with ⟨u', hu', hgap⟩ | heq
  · -- The line begins with `final`.
    rw [after?_eq_some_iff.mp hu', (takeWhile_isWord_append (w := "final".toList) (by decide)
      (isWord_eq_false_of_afterGap? hgap)).1] at hword
    rw [← hword] at hfree
    exact absurd hfree (by decide)
  · have hhead : ∀ a, r.head? = some a → isWord a = false := by
      intro a ha
      obtain ⟨r', hr'⟩ := trimEnd_prefix r
      rw [← hr', before?_eq_some_iff.mp hr] at ha
      obtain rfl : c = a := Option.some.inj ha
      exact isWord_eq_false_of_isBlank hc
    obtain ⟨_, _, _, _, _, hkw⟩ := d.ty.keyword_eq_cons
    rw [heq, (takeWhile_isWord_append hkw hhead).1] at hword
    rw [← hword] at hfree
    have hmem := Declarator.mem_declarable_of_parse? hd
    revert hfree
    simp only [Ty.declarable, List.mem_cons, List.not_mem_nil, or_false] at hmem
    rcases hmem with ht | ht | ht | ht | ht <;> rw [ht] <;> decide

end Declaration

/-! ## Assignments -/

namespace Assignment

variable {t : Ty} {x v : Text}

theorem parse?_equation (hx : Name.isVariable x) (hv : Literal.fits v t) (hcomma : ',' ∉ v)
    (hsemi : ';' ∉ v) (hline : '\n' ∉ v) :
    parse? (Clause.equation x v) = some [⟨x, some v⟩] := by
  have hhead : (Clause.equation x v).head?.any isBlank = false := by
    obtain ⟨c, r, hstart, hc⟩ := (Name.bare_of_isVariable hx).first
    rw [Clause.equation, hstart]
    simpa using hc
  have hno : ',' ∉ Clause.equation x v := by
    rw [Clause.equation, List.mem_append, not_or]
    exact ⟨Clause.not_mem_equation hx (by decide) (by decide) hcomma, by decide⟩
  have hequals : ([Clause.equation x v].all fun s => s.contains '=') = true := by
    simp [Clause.equation]
  rw [parse?, hhead, splitOn_comma_of_not_mem hno, hequals]
  exact Clause.parseAll?_equation hx hv hcomma hsemi hline

theorem parseAll?_of_parse? {line : Text} {cs : List Clause} (h : parse? line = some cs) :
    Clause.parseAll? line = some cs := by
  unfold parse? at h
  split at h
  · simp at h
  · exact h

/-- An assignment begins with its first name. -/
theorem head?_of_parse? {line : Text} {cs : List Clause} (h : parse? line = some cs) :
    line.head?.any isBlank = false := by
  rw [parse?] at h
  split at h
  · simp at h
  · next hnot =>
    rw [Bool.or_eq_true, not_or] at hnot
    exact Bool.eq_false_iff.mpr hnot.1

theorem of_equation (hx : Name.isVariable x) (hfree : Name.isReserved x = false)
    (hline : '\n' ∉ v) : Category.of (Clause.equation x v) = .variableAssignment := by
  have hall := Name.all_isWord_of_isVariable hx
  have hspace : ∀ c, (" = ".toList ++ v ++ [';']).head? = some c → isWord c = false := by
    intro c hc
    obtain rfl := Option.some.inj hc
    exact isWord_eq_false_of_ascii (by decide)
  have hword := takeWhile_isWord_append hall hspace
  rw [← List.append_assoc, ← Clause.equation] at hword
  have hbefore : before? ';' (trimEnd (' ' :: v ++ [';'])) = some (' ' :: v) := by
    rw [trimEnd_concat (by decide)]
    exact before?_eq_some_iff.mpr rfl
  have hne := (Name.bare_of_isVariable hx).ne_nil
  have hadmits : Category.variableAssignment.admits (Clause.equation x v) = true := by
    show isLine (Clause.equation x v) = true
    have hbody : isBlankThenLine (' ' :: v) = true :=
      isBlankThenLine_of_not_mem (by simp) (by simpa using hline)
    have hequals : trimStart (" = ".toList ++ v ++ [';']) = '=' :: (' ' :: v ++ [';']) := rfl
    simp only [isLine, Clause.trimStart_equation hx, hword, hequals, hbefore, Option.any_some,
      hbody]
    simpa using hne
  rcases Category.of_eq_of_variableAssignment hadmits with h | h
  · exact h
  · have hdecl : Declaration.isLine (Clause.equation x v) = true :=
      (Category.admits_iff_of_eq (c := .variableDeclaration) (by simp) _).mpr h
    rw [Clause.equation, List.append_assoc,
      Declaration.isLine_eq_false hall hne hfree hspace] at hdecl
    exact absurd hdecl (by decide)

end Assignment

/-! ## Lists of items -/

namespace Text

/-- The text is one item of a list when `quote` is open before it: it has no comma outside
quotes, and leaves no quote open. -/
def isItem : Option Char → Text → Bool
  | quote, [] => quote.isNone
  | quote, c :: s => !(quote.isNone && c == ',') && isItem (quoteAfter quote c) s

variable {quote : Option Char} {s : Text}

theorem isItem_cons {c : Char} :
    isItem quote (c :: s) ↔ ¬ (quote = none ∧ c = ',') ∧ isItem (quoteAfter quote c) s := by
  rw [isItem, Bool.and_eq_true, Bool.not_eq_true', Bool.eq_false_iff, Ne, Bool.and_eq_true,
    Option.isNone_iff_eq_none, beq_iff_eq]

theorem cutItems_append (h : isItem quote s) (r : Text) :
    cutItems quote (s ++ ',' :: r) = s :: cutItems none r := by
  induction s generalizing quote with
  | nil =>
      obtain rfl : quote = none := by simpa [isItem] using h
      rw [List.nil_append, cutItems, if_pos ⟨rfl, rfl⟩]
  | cons c s ih =>
      obtain ⟨hc, hs⟩ := isItem_cons.mp h
      rw [List.cons_append, cutItems, if_neg hc, ih hs]
      rfl

theorem cutItems_of_isItem (h : isItem quote s) : cutItems quote s = [s] := by
  induction s generalizing quote with
  | nil => rfl
  | cons c s ih =>
      obtain ⟨hc, hs⟩ := isItem_cons.mp h
      rw [cutItems, if_neg hc, ih hs]
      rfl

/-- Items that are put together with commas are cut apart at these commas. -/
theorem cutItems_intercalate {vs : List Text} (hne : vs ≠ []) (h : ∀ v ∈ vs, isItem none v) :
    cutItems none ([','].intercalate vs) = vs := by
  induction vs with
  | nil => exact absurd rfl hne
  | cons v vs ih =>
      rw [List.forall_mem_cons] at h
      cases vs with
      | nil =>
          rw [List.intercalate_singleton]
          exact cutItems_of_isItem h.1
      | cons w ws =>
          rw [List.intercalate_cons_cons, List.append_assoc, List.singleton_append,
            cutItems_append h.1, ih (List.cons_ne_nil _ _) h.2]

theorem mem_intercalate_comma {c : Char} (hc : c ≠ ',') {vs : List Text} :
    c ∈ [','].intercalate vs ↔ ∃ v ∈ vs, c ∈ v := by
  induction vs with
  | nil => simp
  | cons v vs ih =>
      cases vs with
      | nil => simp
      | cons w ws =>
          rw [List.intercalate_cons_cons, List.append_assoc, List.mem_append, List.mem_append, ih]
          simp [hc]

/-- The items of a list are what was put together, without the white space around it. -/
theorem items_intercalate_of_not_blank {vs : List Text} (h : ∀ v ∈ vs, isItem none v)
    (hblank : isBlankText ([','].intercalate vs) = false) :
    items ([','].intercalate vs) = vs.map trim := by
  have hne : vs ≠ [] := by
    rintro rfl
    exact absurd hblank (by decide)
  rw [items, hblank, if_neg Bool.false_ne_true, cutItems_intercalate hne h]

theorem items_intercalate_trim {vs : List Text}
    (h : ∀ v ∈ vs, isItem none v ∧ isBlankText v = false) :
    items ([','].intercalate vs) = vs.map trim := by
  cases vs with
  | nil => rfl
  | cons v vs =>
      refine items_intercalate_of_not_blank (fun w hw => (h w hw).1) ?_
      have hv := (h v List.mem_cons_self).2
      cases vs with
      | nil => rwa [List.intercalate_singleton]
      | cons w ws =>
          rw [List.intercalate_cons_cons, List.append_assoc, isBlankText, List.all_append,
            Bool.and_eq_false_iff]
          exact Or.inl hv

theorem items_intercalate {vs : List Text} (h : ∀ v ∈ vs, isItem none v ∧ v.Bare) :
    items ([','].intercalate vs) = vs := by
  rw [items_intercalate_trim fun v hv => ⟨(h v hv).1, (h v hv).2.isBlankText_eq_false⟩]
  exact (List.map_congr_left fun v hv => (h v hv).2.trim_eq).trans (List.map_id _)

theorem isItem_of_forall (h : ∀ c ∈ s, c ≠ ',' ∧ c ≠ '"' ∧ c ≠ '\'') : isItem none s := by
  induction s with
  | nil => rfl
  | cons c s ih =>
      rw [List.forall_mem_cons] at h
      obtain ⟨⟨hcomma, hdouble, hsingle⟩, hs⟩ := h
      simpa [isItem, quoteAfter, hcomma, hdouble, hsingle] using ih hs

theorem isItem_append_quote {q : Char} (hs : q ∉ s) (r : Text) :
    isItem (some q) (s ++ q :: r) = isItem none r := by
  induction s with
  | nil => simp [isItem, quoteAfter]
  | cons c s ih =>
      rw [List.mem_cons, not_or] at hs
      simpa [isItem, quoteAfter, Ne.symm hs.1] using ih hs.2

/-- What stands between quotes decides nothing. -/
theorem isItem_quoted {q : Char} (hq : q = '"' ∨ q = '\'') (hs : q ∉ s) (r : Text) :
    isItem none (q :: (s ++ q :: r)) = isItem none r := by
  rw [← isItem_append_quote hs r]
  rcases hq with rfl | rfl <;> rfl

end Text

theorem Literal.isItem_of_fits {v : Text} {t : Ty} (h : fits v t) : isItem none v := by
  rcases quoted_or_plain h with ⟨q, s, hq, hs, rfl⟩ | ⟨_, hplain⟩
  · rw [isItem_quoted hq hs]
    rfl
  · refine isItem_of_forall fun c hc => ?_
    have hc' := hplain c hc
    refine ⟨?_, ?_, ?_⟩ <;> rintro rfl <;>
      exact absurd hc' (not_isPlain (by decide) (by decide))

theorem Name.isItem_of_isVariable {x : Text} (h : isVariable x) : isItem none x :=
  isItem_of_forall fun c hc => by
    have hw := List.all_eq_true.mp (all_isWord_of_isVariable h) c hc
    refine ⟨?_, ?_, ?_⟩ <;> rintro rfl <;>
      exact absurd hw (Bool.eq_false_iff.mp (isWord_eq_false_of_ascii (by decide)))

/-! ## Calls -/

theorem takeWhile_ne_append {u : Text} {c : Char} (hu : c ∉ u) (r : Text) :
    (u ++ c :: r).takeWhile (· != c) = u ∧ (u ++ c :: r).dropWhile (· != c) = c :: r := by
  have hall : ∀ a ∈ u, (a != c) = true := fun a ha => by
    simpa using fun he : a = c => hu (he ▸ ha)
  rw [List.takeWhile_append_of_pos hall, List.dropWhile_append_of_pos hall]
  simp

namespace Call

/-- The line `m(v, …);`, without white space. -/
def line (m : Text) (arguments : List Text) : Text :=
  m ++ '(' :: ([','].intercalate arguments ++ [')', ';'])

variable {m : Text} {vs : List Text}

theorem takeWhile_line (hm : Name.isMethod m) (vs : List Text) :
    (line m vs).takeWhile isWord = m ∧
      (line m vs).dropWhile isWord = '(' :: ([','].intercalate vs ++ [')', ';']) := by
  exact takeWhile_isWord_gap (g := [])
    (Name.all_isWord_of_isVariable (Name.isVariable_of_isMethod hm)) rfl
    (isWord_eq_false_of_ascii (by decide)) _

/-- A call is read up to its first closing parenthesis, so no argument may have one. -/
theorem parse?_line (hm : Name.isMethod m) :
    parse? (line m vs) =
      if ')' ∈ [','].intercalate vs then none else some ⟨m, [','].intercalate vs⟩ := by
  obtain ⟨hword, hrest⟩ := takeWhile_line hm vs
  generalize [','].intercalate vs = s at hrest ⊢
  have hparse {u r : Text} (hs : s ++ [')', ';'] = u ++ ')' :: r) (hu : ')' ∉ u) :
      parse? (line m vs) = if trimStart r = [';'] then some ⟨m, u⟩ else none := by
    have hopen : afterParenthesis? ('(' :: (u ++ ')' :: r)) = some (u ++ ')' :: r) := rfl
    have hclose : after? [')'] (')' :: r) = some r := rfl
    simp [parse?, hword, hrest, hs, hopen, takeWhile_ne_append hu, hclose, hm]
  split
  · next hmem =>
    obtain ⟨u, r, rfl, hu⟩ := List.eq_append_cons_of_mem hmem
    rw [hparse (u := u) (r := r ++ [')'] ++ [';']) (by simp) hu, if_neg]
    intro htrim
    obtain ⟨g, hg, heq⟩ := exists_append_trimStart (r ++ [')'] ++ [';'])
    rw [htrim] at heq
    have hmem : ')' ∈ g := by
      rw [← List.append_inj_left' heq rfl]
      simp
    exact not_mem_of_isBlankText hg (by decide) hmem
  · next hnot => rw [hparse rfl hnot, if_pos (by decide)]

theorem of_line (hm : Name.isMethod m) (hfree : Name.isReserved m = false)
    (hparen : ')' ∉ [','].intercalate vs) : Category.of (line m vs) = .methodCall := by
  have hadmits : Category.methodCall.admits (line m vs) = true := by
    show (parse? (line m vs)).isSome = true
    rw [parse?_line hm, if_neg hparen]
    rfl
  refine Category.of_eq_of_admits [.methodDeclaration, .variableDeclaration,
    .conditionalBlockStart] rfl hadmits fun c hc => ?_
  simp only [List.mem_cons, List.not_mem_nil, or_false] at hc
  rcases hc with rfl | rfl | rfl
  · exact Category.admits_eq_false_of_lastMark hadmits (by decide)
  · have hvar := Name.isVariable_of_isMethod hm
    refine Declaration.isLine_eq_false (Name.all_isWord_of_isVariable hvar)
      (Name.bare_of_isVariable hvar).ne_nil hfree fun c hc => ?_
    obtain rfl := Option.some.inj hc
    exact isWord_eq_false_of_ascii (by decide)
  · exact Category.admits_eq_false_of_lastMark hadmits (by decide)

end Call
end SJava
