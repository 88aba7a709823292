/-
Conditions as they are written.

A condition is what stands between the first opening and the last closing parenthesis of its
line (`Condition.Between`).  The operators cut it into pieces, and where two operators overlap
the one that begins first counts (`Condition.Cuts`).  The pieces are operands with white space
around them if and only if the condition is a chain of operands joined by operators
(`Condition.Chain`), so it makes no difference whether a condition is cut first and read after,
or read from left to right.  The block of a condition is opened if each of its pieces can be
tested, and nothing else is asked of the line.
-/
import SJava.Proofs.FailedOperations
import SJava.Proofs.Layout
import SJava.Proofs.Printing

namespace SJava

open Text

/-! ## Operands -/

/-- The texts that have the form of an operand. -/
def Operand.IsText (s : Text) : Prop :=
  s = "true".toList ∨ s = "false".toList ∨ Name.isVariable s ∨ Literal.isDouble s

namespace Operand.IsText

variable {s : Text}

theorem isPlain (h : IsText s) : s ≠ [] ∧ ∀ c ∈ s, Literal.isPlain c := by
  rcases h with rfl | rfl | h | h
  · exact ⟨by decide, List.all_eq_true.mp (by decide)⟩
  · exact ⟨by decide, List.all_eq_true.mp (by decide)⟩
  · refine ⟨(Name.bare_of_isVariable h).ne_nil, fun c hc => ?_⟩
    simp [Literal.isPlain, List.all_eq_true.mp (Name.all_isWord_of_isVariable h) c hc]
  · exact Literal.isPlain_of_isDouble h

theorem bare (h : IsText s) : s.Bare :=
  .of_forall h.isPlain.1 fun c hc => Literal.isBlank_eq_false_of_isPlain (h.isPlain.2 c hc)

end Operand.IsText

namespace Env

/-- The text is an operand that a condition can test: a constant, a number, or a variable that
holds a value of a type that counts as true or false. -/
def CanTest (e : Env) (s : Text) : Prop :=
  s = "true".toList ∨ s = "false".toList ∨ Literal.isDouble s ∨
    Name.isVariable s ∧
      ∃ b, e.find? s = some b ∧ b.isInitialized ∧
        (b.info.ty = .boolean ∨ b.info.ty = .int ∨ b.info.ty = .double)

theorem canTest_iff {e : Env} {s : Text} :
    e.CanTest s ↔ ∃ o, Operand.parse? s = some o ∧ (e.checkOperand o).isOk := by
  have hty (t : Ty) : t.isConditionOperand ↔ t = .boolean ∨ t = .int ∨ t = .double := by
    cases t <;> decide
  by_cases hlit : Literal.isBoolean s || Literal.isDouble s
  · have hparse : Operand.parse? s = some .literal := by rw [Operand.parse?, if_pos hlit]
    refine iff_of_true ?_ ⟨.literal, hparse, rfl⟩
    simp only [Literal.isBoolean, Bool.or_eq_true, beq_iff_eq] at hlit
    rcases hlit with (h | h) | h
    · exact Or.inl h
    · exact Or.inr (Or.inl h)
    · exact Or.inr (Or.inr (Or.inl h))
  · have hparse : Operand.parse? s = if Name.isVariable s then some (.name s) else none := by
      rw [Operand.parse?, if_neg hlit]
    have hcan : e.CanTest s ↔ Name.isVariable s ∧
        ∃ b, e.find? s = some b ∧ b.isInitialized ∧ b.info.ty.isConditionOperand := by
      simp only [Literal.isBoolean, Bool.or_eq_true, beq_iff_eq, not_or] at hlit
      simp only [CanTest, hlit, Bool.false_eq_true, false_or, hty]
    rw [hcan, hparse]
    cases hname : Name.isVariable s with
    | false => simp
    | true => simp [isOk_checkOperand_iff]

end Env

namespace Condition

/-! ## Operators -/

/-- What joins two operands. -/
def operators : List Text := ["&&".toList, "||".toList]

/-- No operator begins the text. -/
def NoneFirst (s : Text) : Prop := ∀ op ∈ operators, ¬ op <+: s

/-- No operator occurs in the text. -/
def Free (s : Text) : Prop := ∀ op ∈ operators, ¬ op <:+: s

/-- An operator is a mark that stands twice. -/
theorem exists_of_mem_operators {op : Text} (h : op ∈ operators) :
    ∃ c, op = [c, c] ∧ (c = '&' ∨ c = '|') := by
  simp only [operators, List.mem_cons, List.not_mem_nil, or_false] at h
  rcases h with rfl | rfl
  · exact ⟨'&', rfl, Or.inl rfl⟩
  · exact ⟨'|', rfl, Or.inr rfl⟩

theorem free_nil : Free [] := by
  intro op hop h
  obtain ⟨c, rfl, _⟩ := exists_of_mem_operators hop
  exact absurd (List.infix_nil.mp h) (by simp)

theorem free_cons_iff {c : Char} {s : Text} : Free (c :: s) ↔ NoneFirst (c :: s) ∧ Free s := by
  constructor
  · intro h
    exact ⟨fun op hop hs => h op hop hs.isInfix, fun op hop hs => h op hop (List.infix_cons hs)⟩
  · intro ⟨hfirst, hs⟩ op hop hinfix
    rcases List.infix_cons_iff.mp hinfix with h | h
    · exact hfirst op hop h
    · exact hs op hop h

/-- A text with neither mark, and at most one character after it. -/
theorem free_append {s u : Text} (hand : '&' ∉ s) (hor : '|' ∉ s) (hu : u.length ≤ 1) :
    Free (s ++ u) := by
  intro op hop hinfix
  obtain ⟨c, rfl, hc⟩ := exists_of_mem_operators hop
  have hnot : c ∉ s := by rcases hc with rfl | rfl <;> assumption
  have htwice : 2 ≤ (s ++ u).count c := by
    have hcount := hinfix.sublist.count_le c
    simpa using hcount
  have hrest : u.count c ≤ u.length := List.count_le_length
  rw [List.count_append, List.count_eq_zero_of_not_mem hnot] at htwice
  omega

/-! ## Pieces -/

/-- The pieces of a text between its operators.  Of the operators in the rest of the text, the
one that is cut at next is the first, so none is complete before its end. -/
inductive Cuts : Text → List Text → Prop
  | last {p : Text} (hp : Free p) : Cuts p [p]
  | more {p op rest : Text} {ps : List Text} (hop : op ∈ operators)
      (hp : Free (p ++ op.dropLast)) (hrest : Cuts rest ps) : Cuts (p ++ (op ++ rest)) (p :: ps)

theorem cutOperators_operator {op : Text} (hop : op ∈ operators) (s : Text) :
    cutOperators (op ++ s) = [] :: cutOperators s := by
  simp only [operators, List.mem_cons, List.not_mem_nil, or_false] at hop
  rcases hop with rfl | rfl <;> simp [cutOperators]

theorem cutOperators_cons {c : Char} {s : Text} (h : NoneFirst (c :: s)) :
    cutOperators (c :: s) = (cutOperators s).modifyHead (c :: ·) := by
  rw [cutOperators]
  · intro t hc hs
    subst hc hs
    exact h "&&".toList (by simp [operators]) ⟨t, rfl⟩
  · intro t hc hs
    subst hc hs
    exact h "||".toList (by simp [operators]) ⟨t, rfl⟩

theorem cutOperators_of_free {s : Text} (h : Free s) : cutOperators s = [s] := by
  induction s with
  | nil => rfl
  | cons c s ih =>
      obtain ⟨hfirst, hs⟩ := free_cons_iff.mp h
      rw [cutOperators_cons hfirst, ih hs]
      rfl

/-- The beginning of an operator is too short to decide whether a text in front of it begins
with one. -/
theorem noneFirst_append {c : Char} {s op rest : Text} (hop : op ∈ operators) :
    NoneFirst (c :: (s ++ op.dropLast)) ↔ NoneFirst (c :: (s ++ (op ++ rest))) := by
  obtain ⟨d, rfl, _⟩ := exists_of_mem_operators hop
  have hpre : c :: (s ++ [d]) <+: c :: (s ++ ([d, d] ++ rest)) := ⟨d :: rest, by simp⟩
  constructor
  · intro h op' hop' hfirst
    obtain ⟨a, rfl, _⟩ := exists_of_mem_operators hop'
    exact h _ hop' (List.prefix_of_prefix_length_le hfirst hpre (by simp))
  · intro h op' hop' hfirst
    exact h op' hop' (hfirst.trans hpre)

theorem cutOperators_append {p op : Text} (hop : op ∈ operators) (hp : Free (p ++ op.dropLast))
    (rest : Text) : cutOperators (p ++ (op ++ rest)) = p :: cutOperators rest := by
  induction p with
  | nil => exact cutOperators_operator hop rest
  | cons c p ih =>
      obtain ⟨hfirst, hp⟩ := free_cons_iff.mp hp
      rw [List.cons_append, cutOperators_cons ((noneFirst_append hop).mp hfirst), ih hp]
      rfl

/-- One more character in front of a text, where it begins no operator, is one more in front of
the first piece. -/
theorem Cuts.cons {c : Char} {s : Text} {ps : List Text} (h : Cuts s ps)
    (hfirst : NoneFirst (c :: s)) : Cuts (c :: s) (ps.modifyHead (c :: ·)) := by
  cases h with
  | last hp => exact .last (free_cons_iff.mpr ⟨hfirst, hp⟩)
  | @more p op rest ps hop hp hrest =>
      have hfree : Free (c :: p ++ op.dropLast) :=
        free_cons_iff.mpr ⟨(noneFirst_append hop).mpr hfirst, hp⟩
      exact .more hop hfree hrest

theorem cuts_cutOperators (s : Text) : Cuts s (cutOperators s) := by
  have hone (c : Char) : Free ([] ++ [c]) := free_append (by simp) (by simp) (by simp)
  fun_induction cutOperators s with
  | case1 => exact .last free_nil
  | case2 s ih =>
      have hop : "&&".toList ∈ operators := by simp [operators]
      exact .more (p := []) hop (hone '&') ih
  | case3 s ih =>
      have hop : "||".toList ∈ operators := by simp [operators]
      exact .more (p := []) hop (hone '|') ih
  | case4 c s hand hor ih =>
      refine ih.cons fun op hop hpre => ?_
      obtain ⟨d, rfl, hd⟩ := exists_of_mem_operators hop
      obtain ⟨t, ht⟩ := hpre
      obtain ⟨rfl, rfl⟩ : d = c ∧ d :: t = s := by simpa using ht
      rcases hd with rfl | rfl
      · exact hand t rfl rfl
      · exact hor t rfl rfl

/-- The pieces are determined, and they are found by one walk from left to right. -/
theorem cuts_iff {s : Text} {ps : List Text} : Cuts s ps ↔ cutOperators s = ps := by
  constructor
  · intro h
    induction h with
    | last hp => exact cutOperators_of_free hp
    | more hop hp _ ih => rw [cutOperators_append hop hp, ih]
  · intro h
    subst h
    exact cuts_cutOperators s

/-! ## White space around a condition -/

theorem Cuts.indent {g s : Text} {ps : List Text} (hg : isBlankText g) (h : Cuts s ps) :
    ∃ ps', Cuts (g ++ s) ps' ∧ ps'.map trim = ps.map trim := by
  induction g with
  | nil => exact ⟨ps, h, rfl⟩
  | cons c g ih =>
      simp only [isBlankText, List.all_cons, Bool.and_eq_true] at hg
      obtain ⟨ps', hps', htrim⟩ := ih hg.2
      have hfirst : NoneFirst (c :: (g ++ s)) := by
        intro op hop hpre
        obtain ⟨d, rfl, hd⟩ := exists_of_mem_operators hop
        obtain rfl : d = c := (List.cons_prefix_cons.mp hpre).1
        rcases hd with rfl | rfl <;> exact absurd hg.1 (by decide)
      refine ⟨_, hps'.cons hfirst, ?_⟩
      rw [← htrim]
      cases ps' with
      | nil => rfl
      | cons p ps' =>
          have hc : isBlankText [c] := by simp [isBlankText, hg.1]
          exact congrArg (· :: ps'.map trim) (trim_indent hc p)

theorem free_append_blank {s g : Text} (hs : Free s) (hg : isBlankText g) : Free (s ++ g) := by
  induction s with
  | nil =>
      rw [List.nil_append, ← List.append_nil g]
      exact free_append (not_mem_of_isBlankText hg (by decide))
        (not_mem_of_isBlankText hg (by decide)) (by simp)
  | cons c s ih =>
      obtain ⟨hfirst, hs⟩ := free_cons_iff.mp hs
      refine free_cons_iff.mpr ⟨fun op hop hpre => ?_, ih hs⟩
      obtain ⟨d, rfl, hd⟩ := exists_of_mem_operators hop
      obtain ⟨rfl, hsecond⟩ := List.cons_prefix_cons.mp hpre
      cases s with
      | nil =>
          -- The second mark of the operator would be white space.
          have hmem : d ∈ g := hsecond.subset List.mem_cons_self
          refine not_mem_of_isBlankText hg ?_ hmem
          rcases hd with rfl | rfl <;> decide
      | cons a s =>
          obtain rfl : d = a := (List.cons_prefix_cons.mp hsecond).1
          exact hfirst _ hop (by simp)

theorem Cuts.append_blank {g s : Text} {ps : List Text} (hg : isBlankText g) (h : Cuts s ps) :
    ∃ ps', Cuts (s ++ g) ps' ∧ ps'.map trim = ps.map trim := by
  induction h with
  | @last p hp =>
      refine ⟨[p ++ g], .last (free_append_blank hp hg), ?_⟩
      rw [List.map_singleton, List.map_singleton, trim_append hg]
  | @more p op rest ps hop hp _ ih =>
      obtain ⟨ps', hps', htrim⟩ := ih
      refine ⟨p :: ps', ?_, congrArg (trim p :: ·) htrim⟩
      rw [List.append_assoc, List.append_assoc]
      exact .more hop hp hps'

/-- White space around a condition is white space around its first and its last piece. -/
theorem map_trim_cutOperators_trim (s : Text) :
    (cutOperators (trim s)).map trim = (cutOperators s).map trim := by
  obtain ⟨g, hg, hstart⟩ := exists_append_trimStart s
  obtain ⟨g', hg', hend⟩ := exists_trimEnd_append (trimStart s)
  obtain ⟨ps, hps, htrim⟩ := (cuts_cutOperators (trim s)).append_blank hg'
  obtain ⟨ps', hps', htrim'⟩ := hps.indent hg
  rw [trim, ← hend, ← hstart, cuts_iff] at hps'
  rw [hps', htrim', htrim]

/-! ## Chains -/

/-- Operands with white space around them, and an operator between each two. -/
inductive Chain : Text → Prop
  | last {g o g' : Text} (hg : isBlankText g) (ho : Operand.IsText o) (hg' : isBlankText g') :
      Chain (g ++ (o ++ g'))
  | more {g o g' op rest : Text} (hg : isBlankText g) (ho : Operand.IsText o)
      (hg' : isBlankText g') (hop : op ∈ operators) (hrest : Chain rest) :
      Chain (g ++ (o ++ g') ++ (op ++ rest))

/-- An operand with white space around it holds no mark of an operator. -/
theorem free_operand {g o g' u : Text} (hg : isBlankText g) (ho : Operand.IsText o)
    (hg' : isBlankText g') (hu : u.length ≤ 1) : Free (g ++ (o ++ g') ++ u) := by
  have hnot {c : Char} (hc : isBlank c = false) (hplain : ¬ Literal.isPlain c) :
      c ∉ g ++ (o ++ g') := by
    simp only [List.mem_append, not_or]
    exact ⟨not_mem_of_isBlankText hg hc, fun h => hplain (ho.isPlain.2 c h),
      not_mem_of_isBlankText hg' hc⟩
  exact free_append (hnot (by decide) (Literal.not_isPlain (by decide) (by decide)))
    (hnot (by decide) (Literal.not_isPlain (by decide) (by decide))) hu

theorem trim_operand {g o g' : Text} (hg : isBlankText g) (ho : Operand.IsText o)
    (hg' : isBlankText g') : trim (g ++ (o ++ g')) = o := by
  rw [trim_indent hg, trim_append hg', ho.bare.trim_eq]

/-- A condition is a chain if each of its pieces is an operand. -/
theorem Cuts.chain_iff {s : Text} {ps : List Text} (h : Cuts s ps) :
    Chain s ↔ ∀ p ∈ ps, Operand.IsText (trim p) := by
  constructor
  · intro hchain
    rw [← cuts_iff.mp h]
    clear h
    induction hchain with
    | @last g o g' hg ho hg' =>
        have hfree := free_operand hg ho hg' (u := []) (by simp)
        rw [List.append_nil] at hfree
        rw [cutOperators_of_free hfree, List.forall_mem_singleton, trim_operand hg ho hg']
        exact ho
    | @more g o g' op rest hg ho hg' hop _ ih =>
        obtain ⟨c, rfl, _⟩ := exists_of_mem_operators hop
        rw [cutOperators_append hop (free_operand hg ho hg' (by simp)), List.forall_mem_cons,
          trim_operand hg ho hg']
        exact ⟨ho, ih⟩
  · intro hps
    have hparts (p : Text) : ∃ g g', isBlankText g ∧ isBlankText g' ∧ p = g ++ (trim p ++ g') := by
      obtain ⟨g, hg, hstart⟩ := exists_append_trimStart p
      obtain ⟨g', hg', hend⟩ := exists_trimEnd_append (trimStart p)
      exact ⟨g, g', hg, hg', by rw [trim, ← hend, ← hstart]⟩
    induction h with
    | @last p _ =>
        obtain ⟨g, g', hg, hg', hp⟩ := hparts p
        rw [hp]
        exact .last hg (hps p List.mem_cons_self) hg'
    | @more p op rest ps hop _ _ ih =>
        obtain ⟨g, g', hg, hg', hp⟩ := hparts p
        rw [List.forall_mem_cons] at hps
        rw [hp]
        exact .more hg hps.1 hg' hop (ih hps.2)

/-! ## Lines of conditions -/

/-- The text between the first opening and the last closing parenthesis of a line.  On the line
of a condition, what stands before the keyword is white space, so the first parenthesis of the
line is the first after the keyword. -/
def Between (line condition : Text) : Prop :=
  ∃ before after, line = before ++ '(' :: (condition ++ ')' :: after) ∧
    '(' ∉ before ∧ ')' ∉ after

theorem Between.unique {line s t : Text} (hs : Between line s) (ht : Between line t) : s = t := by
  obtain ⟨u, v, hline, hu, hv⟩ := hs
  obtain ⟨u', v', hline', hu', hv'⟩ := ht
  have hfirst : s ++ ')' :: v = t ++ ')' :: v' := by
    have h := (takeWhile_ne_append hu (s ++ ')' :: v)).2
    rw [← hline, hline', (takeWhile_ne_append hu' _).2] at h
    exact (List.cons.inj h).2.symm
  -- The last closing parenthesis is the first from the other end.
  have hlast : s.reverse = t.reverse := by
    have hback : v.reverse ++ ')' :: s.reverse = v'.reverse ++ ')' :: t.reverse := by
      simpa using congrArg List.reverse hfirst
    have h := (takeWhile_ne_append (u := v.reverse) (by simpa using hv) s.reverse).2
    rw [hback, (takeWhile_ne_append (by simpa using hv') _).2] at h
    exact (List.cons.inj h).2.symm
  exact List.reverse_inj.mp hlast

/-- The line of a condition has one between its parentheses, and that is the one it is read
for. -/
theorem exists_between {line : Text} (h : isLine line) :
    ∃ condition, Between line condition ∧ text line = trim condition := by
  obtain ⟨condition, hblock, _⟩ := (Option.any_eq_true _ _).mp h
  obtain ⟨r, hr, hbefore⟩ := Option.bind_eq_some_iff.mp hblock
  obtain ⟨s, hs, hopen⟩ := Option.bind_eq_some_iff.mp hr
  have hkeyword : ∃ w, trimStart line = w ++ s ∧ '(' ∉ w := by
    rcases Option.or_eq_some_iff.mp hs with hs | ⟨_, hs⟩
    · exact ⟨_, after?_eq_some_iff.mp hs, by decide⟩
    · exact ⟨_, after?_eq_some_iff.mp hs, by decide⟩
  obtain ⟨w, hw, hparen⟩ := hkeyword
  obtain ⟨g, hg, hline⟩ := exists_append_trimStart line
  obtain ⟨g', hg', hs'⟩ := afterParenthesis?_eq_some_iff.mp hopen
  obtain ⟨k, k', hk, hk', hr'⟩ := beforeBlock?_eq_some_iff.mp hbefore
  refine ⟨condition, ⟨g ++ (w ++ g'), k ++ '\x7b' :: k', ?_, ?_, ?_⟩, ?_⟩
  · rw [hline, hw, hs', hr', List.append_assoc, List.append_assoc]
  · simp only [List.mem_append, not_or]
    exact ⟨not_mem_of_isBlankText hg (by decide), hparen, not_mem_of_isBlankText hg' (by decide)⟩
  · simp only [List.mem_append, List.mem_cons, not_or]
    exact ⟨not_mem_of_isBlankText hk (by decide), by decide,
      not_mem_of_isBlankText hk' (by decide)⟩
  · rw [text, hr, Option.getD_some, hbefore, Option.getD_some]

end Condition

/-! ## Blocks of conditions -/

namespace Env

theorem failure_openBlock_iff {e : Env} {line : Text} :
    (e.openBlock line).failure = none ↔
      e.isGlobal = false ∧ ∃ os, Condition.operands? (Condition.text line) = some os ∧
        ∀ o ∈ os, (e.checkOperand o).isOk := by
  simp only [← isOk_checkOperands_iff]
  unfold openBlock
  cases e.isGlobal with
  | true => simp [Outcome.fail]
  | false =>
      cases Condition.operands? (Condition.text line) with
      | none => simp [Outcome.fail]
      | some os => cases hos : e.checkOperands os <;> simp [hos, Outcome.fail, Outcome.ok]

theorem allOrNothing_openBlock (e : Env) (line : Text) :
    Outcome.AllOrNothing e (e.openBlock line) := by
  unfold openBlock
  split
  · exact .fail _
  split
  · exact .fail _
  next os _ =>
  cases e.checkOperands os with
  | error fault => exact .fail fault
  | ok _ => exact .ok _

/-- A line that is that of a condition opens a block if and only if it stands inside a method and
each piece of the condition can be tested.  The block has a frame of its own, which is empty, and
all else stays as it was; if the block is not opened, everything stays as it was.  A piece is what
stands between two operators, and all of them are operands if and only if the condition is a
chain. -/
theorem condition_opens_block_iff (e : Env) {line : Text} (hline : Condition.isLine line) :
    (∃ condition pieces, Condition.Between line condition ∧ Condition.Cuts condition pieces) ∧
    ∀ condition pieces, Condition.Between line condition → Condition.Cuts condition pieces →
      (Condition.Chain condition ↔ ∀ p ∈ pieces, Operand.IsText (trim p)) ∧
      ((e.openBlock line).failure = none ↔ 2 ≤ e.depth ∧ ∀ p ∈ pieces, e.CanTest (trim p)) ∧
      ((e.openBlock line).failure = none → (e.openBlock line).state =
        { e with locals := Frame.empty (some e.locals.length) :: e.locals }) ∧
      ((e.openBlock line).failure ≠ none → (e.openBlock line).state = e) := by
  obtain ⟨s, hs, htext⟩ := Condition.exists_between hline
  refine ⟨⟨s, _, hs, Condition.cuts_cutOperators s⟩, ?_⟩
  intro condition pieces hbetween hcuts
  obtain rfl := hbetween.unique hs
  refine ⟨hcuts.chain_iff, ?_, ?_, ?_⟩
  · have hpieces : (∀ p ∈ pieces, e.CanTest (trim p)) ↔
        ∀ p ∈ Condition.cutOperators (trim condition), e.CanTest (trim p) := by
      rw [← List.forall_mem_map (f := trim) (P := e.CanTest),
        ← List.forall_mem_map (f := trim) (P := e.CanTest),
        Condition.map_trim_cutOperators_trim, Condition.cuts_iff.mp hcuts]
    rw [failure_openBlock_iff, isGlobal_eq_false_iff, htext, hpieces]
    simp only [canTest_iff, Condition.operands?, exists_mapM_eq_some_iff]
  · intro hok
    exact (result?_openBlock_eq_some (Outcome.failure_eq_none_iff.mp hok)).2
  · intro hfail
    obtain ⟨fault, hfault⟩ := Option.ne_none_iff_exists'.mp hfail
    rw [allOrNothing_openBlock e line fault hfault]
    rfl

end Env

/-- The body of a method that has a variable `n`. -/
def sampleLoopBody : Env :=
  ⟨[], Frame.empty none, [⟨some 0, [⟨"n".toList, ⟨.int, false, false⟩, true⟩]⟩]⟩

def sampleLoop : Text := "while( n&&-.5 ||true ) \x7b".toList

theorem sampleLoop_opens_block :
    Condition.isLine sampleLoop ∧ Condition.Between sampleLoop " n&&-.5 ||true ".toList ∧
      Condition.Chain " n&&-.5 ||true ".toList ∧
      (sampleLoopBody.openBlock sampleLoop).failure = none ∧
      (sampleLoopBody.openBlock sampleLoop).state.locals =
        Frame.empty (some 1) :: sampleLoopBody.locals := by
  have hline : Condition.isLine sampleLoop := by decide +kernel
  have hbetween : Condition.Between sampleLoop " n&&-.5 ||true ".toList :=
    ⟨"while".toList, " \x7b".toList, rfl, by decide, by decide⟩
  have hcuts : Condition.Cuts " n&&-.5 ||true ".toList
      [" n".toList, "-.5 ".toList, "true ".toList] := Condition.cuts_iff.mpr (by decide)
  obtain ⟨hchain, hopen, hpush, _⟩ :=
    (Env.condition_opens_block_iff sampleLoopBody hline).2 _ _ hbetween hcuts
  have hvar : Name.isVariable "n".toList := by decide +kernel
  have hnum : Literal.isDouble "-.5".toList := by decide +kernel
  have hok : (sampleLoopBody.openBlock sampleLoop).failure = none := by
    refine hopen.mpr ⟨by decide, ?_⟩
    simp only [List.forall_mem_cons]
    refine ⟨Or.inr (Or.inr (Or.inr ⟨hvar, _, rfl, rfl, Or.inr (Or.inl rfl)⟩)),
      Or.inr (Or.inr (Or.inl hnum)), Or.inl rfl, by simp⟩
  refine ⟨hline, hbetween, hchain.mpr ?_, hok, by rw [hpush hok]; rfl⟩
  simp only [List.forall_mem_cons]
  exact ⟨Or.inr (Or.inr (Or.inl hvar)), Or.inr (Or.inr (Or.inr hnum)), Or.inl rfl, by simp⟩

end SJava
