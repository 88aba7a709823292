/-
What is read from a line stands on the line.

A line is cut into pieces at commas, at operators and at white space, and the pieces lose the
white space around them.  No piece is put together from several places, so every name, value,
word and condition that a line is read for is a contiguous part of it.
-/
import Mathlib.Data.List.Forall2
import SJava.Proofs.Clauses

namespace SJava

open Text

/-! ## Lists read item by item -/

section Reading

variable {ε α β : Type} {as : List α} {bs : List β}

theorem exists_of_mem_of_mapM_eq_some {f : α → Option β} (h : as.mapM f = some bs) {b : β}
    (hb : b ∈ bs) : ∃ a ∈ as, f a = some b := by
  induction as generalizing bs with
  | nil =>
      obtain rfl : [] = bs := Option.some.inj h
      simp at hb
  | cons a as ih =>
      rw [List.mapM_cons] at h
      obtain ⟨b', hb', h⟩ := Option.bind_eq_some_iff.mp h
      obtain ⟨bs', hbs, h⟩ := Option.bind_eq_some_iff.mp h
      obtain rfl : b' :: bs' = bs := Option.some.inj h
      rcases List.mem_cons.mp hb with rfl | hb
      · exact ⟨a, List.mem_cons_self, hb'⟩
      · obtain ⟨a', ha', hf⟩ := ih hbs hb
        exact ⟨a', List.mem_cons_of_mem _ ha', hf⟩

/-- A list is read item by item. -/
theorem mapM_eq_ok_iff {f : α → Except ε β} :
    as.mapM f = .ok bs ↔ List.Forall₂ (fun a b => f a = .ok b) as bs := by
  induction as generalizing bs with
  | nil =>
      rw [List.mapM_nil, List.forall₂_nil_left_iff]
      exact ⟨fun h => (Except.ok.inj h).symm, fun h => congrArg Except.ok h.symm⟩
  | cons a as ih =>
      rw [List.mapM_cons, List.forall₂_cons_left_iff]
      constructor
      · intro h
        cases ha : f a with
        | error e =>
            rw [ha] at h
            exact nomatch h
        | ok b =>
            cases has : as.mapM f with
            | error e =>
                rw [ha, has] at h
                exact nomatch h
            | ok bs' =>
                rw [ha, has] at h
                exact ⟨b, bs', rfl, ih.mp has, (Except.ok.inj h).symm⟩
      · intro ⟨b, bs', ha, has, hbs⟩
        rw [ha, ih.mpr has, hbs]
        rfl

theorem exists_of_mem_of_mapM_eq_ok {f : α → Except ε β} (h : as.mapM f = .ok bs) {b : β}
    (hb : b ∈ bs) : ∃ a ∈ as, f a = .ok b := by
  induction mapM_eq_ok_iff.mp h with
  | nil => simp at hb
  | cons hab hrest ih =>
      rcases List.mem_cons.mp hb with rfl | hb
      · exact ⟨_, List.mem_cons_self, hab⟩
      · obtain ⟨a', ha', hf⟩ := ih (mapM_eq_ok_iff.mpr hrest) hb
        exact ⟨a', List.mem_cons_of_mem _ ha', hf⟩

/-- A list is read with results of a kind if each of its items is. -/
theorem exists_mapM_eq_some_iff {f : α → Option β} {Q : β → Prop} :
    (∃ bs, as.mapM f = some bs ∧ ∀ b ∈ bs, Q b) ↔ ∀ a ∈ as, ∃ b, f a = some b ∧ Q b := by
  induction as with
  | nil => simp
  | cons a as ih =>
      rw [List.forall_mem_cons, ← ih, List.mapM_cons]
      constructor
      · intro ⟨bs, h, hbs⟩
        obtain ⟨b, hb, h⟩ := Option.bind_eq_some_iff.mp h
        obtain ⟨bs', hbs', h⟩ := Option.bind_eq_some_iff.mp h
        obtain rfl : b :: bs' = bs := Option.some.inj h
        rw [List.forall_mem_cons] at hbs
        exact ⟨⟨b, hb, hbs.1⟩, bs', hbs', hbs.2⟩
      · intro ⟨⟨b, hb, hQ⟩, bs, hbs, hQs⟩
        refine ⟨b :: bs, ?_, List.forall_mem_cons.mpr ⟨hQ, hQs⟩⟩
        rw [hb, hbs]
        rfl

/-- A list that cannot be read has an item that cannot. -/
theorem exists_of_mapM_eq_error {f : α → Except ε β} {e : ε} (h : as.mapM f = .error e) :
    ∃ a ∈ as, f a = .error e := by
  induction as with
  | nil => exact nomatch h
  | cons a as ih =>
      rw [List.mapM_cons] at h
      cases ha : f a with
      | error e' =>
          rw [ha] at h
          obtain rfl : e' = e := Except.error.inj h
          exact ⟨a, List.mem_cons_self, ha⟩
      | ok b =>
          cases has : as.mapM f with
          | error e' =>
              rw [ha, has] at h
              obtain rfl : e' = e := Except.error.inj h
              obtain ⟨a', ha', hf⟩ := ih has
              exact ⟨a', List.mem_cons_of_mem _ ha', hf⟩
          | ok bs =>
              rw [ha, has] at h
              exact nomatch h

end Reading

/-! ## Pieces of a text -/

namespace Text

/-- The pieces are parts of the text, and the first of them begins it. -/
structure CutInto (s : Text) (pieces : List Text) : Prop where
  first : ∀ p, pieces.head? = some p → p <+: s
  parts : ∀ p ∈ pieces, p <:+: s

namespace CutInto

variable {s t : Text} {pieces : List Text}

theorem nil : CutInto [] [[]] := by
  refine ⟨fun p hp => ?_, fun p hp => ?_⟩
  · obtain rfl : [] = p := Option.some.inj hp
    exact List.nil_prefix
  · obtain rfl : p = [] := List.mem_singleton.mp hp
    exact List.nil_infix

/-- The text before a separator. -/
theorem separate (h : CutInto s pieces) (hs : s <:+ t) : CutInto t ([] :: pieces) := by
  refine ⟨fun p hp => ?_, fun p hp => ?_⟩
  · obtain rfl : [] = p := Option.some.inj hp
    exact List.nil_prefix
  · rcases List.mem_cons.mp hp with rfl | hp
    · exact List.nil_infix
    · exact (h.parts p hp).trans hs.isInfix

/-- A character that separates nothing. -/
theorem extend (h : CutInto s pieces) (c : Char) :
    CutInto (c :: s) (pieces.modifyHead (c :: ·)) := by
  cases pieces with
  | nil => exact ⟨fun p hp => absurd hp (by simp), fun p hp => absurd hp (by simp)⟩
  | cons q pieces =>
      have hq : c :: q <+: c :: s := List.cons_prefix_cons.mpr ⟨rfl, h.first q rfl⟩
      refine ⟨fun p hp => ?_, fun p hp => ?_⟩
      · rw [← Option.some.inj hp]
        exact hq
      · rcases List.mem_cons.mp hp with rfl | hp
        · exact hq.isInfix
        · exact List.infix_cons (h.parts p (List.mem_cons_of_mem _ hp))

end CutInto

theorem cutInto_splitOnP (p : Char → Bool) (s : Text) : CutInto s (s.splitOnP p) := by
  induction s with
  | nil => exact .nil
  | cons c s ih =>
      rw [List.splitOnP_cons_eq_if_modifyHead]
      split
      · exact ih.separate (List.suffix_cons c s)
      · exact ih.extend c

theorem cutInto_cutItems (quote : Option Char) (s : Text) : CutInto s (cutItems quote s) := by
  induction s generalizing quote with
  | nil => exact .nil
  | cons c s ih =>
      rw [cutItems]
      split
      · exact (ih none).separate (List.suffix_cons c s)
      · exact (ih _).extend c

theorem cutInto_cutOperators (s : Text) : CutInto s (Condition.cutOperators s) := by
  fun_induction Condition.cutOperators s with
  | case1 => exact .nil
  | case2 s ih => exact ih.separate (List.suffix_append ['&', '&'] s)
  | case3 s ih => exact ih.separate (List.suffix_append ['|', '|'] s)
  | case4 c s _ _ ih => exact ih.extend c

theorem infix_trim (s : Text) : trim s <:+: s := by
  have hend : trim s <+: trimStart s := trimEnd_prefix _
  exact hend.isInfix.trans (trimStart_suffix s).isInfix

theorem infix_of_mem_words {s w : Text} (h : w ∈ words s) : w <:+: s :=
  (cutInto_splitOnP isBlank s).parts w (List.mem_of_mem_filter h)

theorem infix_of_mem_items {s item : Text} (h : item ∈ items s) : item <:+: s := by
  rw [items] at h
  split at h
  · simp at h
  · obtain ⟨p, hp, rfl⟩ := List.mem_map.mp h
    exact (infix_trim p).trans ((cutInto_cutItems none s).parts p hp)

theorem prefix_of_before? {c : Char} {s r : Text} (h : before? c s = some r) : r <+: s := by
  rw [before?_eq_some_iff.mp h]
  exact List.prefix_append r [c]

end Text

/-! ## Pieces of a line -/

theorem prefix_of_beforeBlock? {s r : Text} (h : beforeBlock? s = some r) : r <+: s := by
  obtain ⟨t, ht, hr⟩ := Option.bind_eq_some_iff.mp h
  have hts : t <+: s := (prefix_of_before? ht).trans <| trimEnd_prefix s
  have hrt : r <+: t := (prefix_of_before? hr).trans <| trimEnd_prefix t
  exact hrt.trans hts

theorem Header.infix_of_parse? {line : Text} {h : Header} (hp : Header.parse? line = some h) :
    h.name <:+: line ∧ h.parameters <:+: line := by
  simp only [Header.parse?, bind, Option.bind_eq_some_iff] at hp
  obtain ⟨s, ⟨u, hu, hgap⟩, t, ht, ps, hps, hh⟩ := hp
  have hs : s <:+ line := (suffix_of_afterGap? hgap).trans (suffix_of_after? hu)
  have hts : t <:+ line :=
    ((suffix_of_afterParenthesis? ht).trans (List.dropWhile_suffix _)).trans hs
  split at hh
  · obtain rfl := Option.some.inj hh
    exact ⟨(List.takeWhile_prefix _).isInfix.trans hs.isInfix,
      (prefix_of_beforeBlock? hps).isInfix.trans hts.isInfix⟩
  · simp at hh

namespace Parameter

theorem name_of_ofWords {isFinal : Bool} {ty name : Text} {p : Parameter}
    (h : ofWords isFinal ty name = .ok p) : p.name = name := by
  unfold ofWords at h
  split at h
  · simp at h
  split at h
  · simp at h
  split at h
  · rw [← Except.ok.inj h]
  · simp at h

/-- A parameter is read from words of its text. -/
theorem exists_ofWords_of_parse (s : Text) :
    parse s = .error (.invalidParameter s) ∨
      ∃ isFinal, ∃ ty ∈ words s, ∃ name ∈ words s, parse s = ofWords isFinal ty name := by
  unfold parse
  split
  · next ty name hw =>
    split
    · exact Or.inl rfl
    · exact Or.inr ⟨false, ty, by simp [hw], name, by simp [hw], rfl⟩
  · next modifier ty name hw =>
    split
    · exact Or.inr ⟨true, ty, by simp [hw], name, by simp [hw], rfl⟩
    · exact Or.inl rfl
  · exact Or.inl rfl

theorem infix_of_parse {s : Text} {p : Parameter} (h : parse s = .ok p) : p.name <:+: s := by
  rcases exists_ofWords_of_parse s with hs | ⟨isFinal, ty, _, name, hname, hs⟩
  · rw [hs] at h
    simp at h
  · rw [hs] at h
    rw [name_of_ofWords h]
    exact infix_of_mem_words hname

end Parameter

namespace Header

/-- The signature of a header is its name and what is read from its parameters. -/
theorem signature_eq_ok {h : Header} {s : Signature} (hs : h.signature = .ok s) :
    Name.isReserved h.name = false ∧
      (items h.parameters).mapM Parameter.parse = .ok s.parameters := by
  unfold signature at hs
  split at hs
  · simp at hs
  · next hr =>
    cases hm : (items h.parameters).mapM Parameter.parse with
    | error fault => simp [hm, Except.map] at hs
    | ok ps =>
        simp only [hm, Except.map, Except.ok.injEq] at hs
        rw [← hs]
        exact ⟨by simpa using hr, rfl⟩

theorem infix_of_signature {h : Header} {s : Signature} (hs : h.signature = .ok s) :
    ∀ p ∈ s.parameters, p.name <:+: h.parameters := by
  intro p hp
  obtain ⟨item, hitem, hparse⟩ := exists_of_mem_of_mapM_eq_ok (signature_eq_ok hs).2 hp
  exact (Parameter.infix_of_parse hparse).trans (infix_of_mem_items hitem)

end Header

theorem Call.infix_of_parse? {line : Text} {c : Call} (hp : Call.parse? line = some c) :
    c.method <:+: line ∧ c.arguments <:+: line := by
  simp only [Call.parse?, bind, Option.bind_eq_some_iff] at hp
  obtain ⟨s, hs, r, _, hc⟩ := hp
  split at hc
  · obtain rfl := Option.some.inj hc
    have hsl : s <:+ line := (suffix_of_afterParenthesis? hs).trans (List.dropWhile_suffix _)
    exact ⟨(List.takeWhile_prefix _).isInfix, (List.takeWhile_prefix _).isInfix.trans hsl.isInfix⟩
  · simp at hc

theorem Condition.infix_text (line : Text) : Condition.text line <:+: line := by
  have hopen : (opening? line).getD line <:+ line := by
    cases h : opening? line with
    | none => exact List.suffix_refl line
    | some s =>
        obtain ⟨u, hu, hs⟩ := Option.bind_eq_some_iff.mp h
        have hul : u <:+ trimStart line := by
          rcases Option.or_eq_some_iff.mp hu with hu | ⟨_, hu⟩ <;> exact suffix_of_after? hu
        exact (suffix_of_afterParenthesis? hs).trans (hul.trans (trimStart_suffix line))
  refine (infix_trim _).trans (List.IsInfix.trans ?_ hopen.isInfix)
  cases h : beforeBlock? ((opening? line).getD line) with
  | none => exact List.infix_refl _
  | some r => exact (prefix_of_beforeBlock? h).isInfix

theorem Operand.infix_of_mem_operands? {s x : Text} {os : List Operand}
    (h : Condition.operands? s = some os) (hx : .name x ∈ os) : x <:+: s := by
  obtain ⟨p, hp, ho⟩ := exists_of_mem_of_mapM_eq_some h hx
  rw [Operand.parse?] at ho
  split at ho
  · simp at ho
  split at ho
  · obtain rfl : trim p = x := by simpa using ho
    exact (infix_trim p).trans ((cutInto_cutOperators s).parts p hp)
  · simp at ho

/-- The name and the value of a clause are parts of a text. -/
structure Clause.PartOf (c : Clause) (s : Text) : Prop where
  name : c.name <:+: s
  value : ∀ v, c.value = some v → v <:+: s

namespace Clause

theorem PartOf.trans {c : Clause} {s t : Text} (h : c.PartOf s) (hst : s <:+: t) : c.PartOf t :=
  ⟨h.name.trans hst, fun v hv => (h.value v hv).trans hst⟩

/-- The value of a clause stands behind its name and the equals sign. -/
theorem infix_value {s : Text} {d : Char} {rest : Text}
    (h : trimStart (s.dropWhile isWord) = d :: rest) : trimStart rest <:+: s := by
  have hd : d :: rest <:+ s := h ▸ (trimStart_suffix _).trans (List.dropWhile_suffix _)
  exact ((trimStart_suffix rest).trans ((List.suffix_cons d rest).trans hd)).isInfix

theorem partOf_of_parse? {s : Text} {c : Clause} (h : parse? s = some c) : c.PartOf s := by
  refine PartOf.trans ?_ (infix_trim s)
  simp only [parse?] at h
  split at h
  · split at h
    · obtain rfl := Option.some.inj h
      exact ⟨List.infix_refl _, fun v hv => absurd hv (by simp)⟩
    · next d rest hrest =>
      split at h
      · simp at h
      split at h
      · obtain rfl := Option.some.inj h
        exact ⟨List.infix_refl _, fun v hv => absurd hv (by simp)⟩
      · obtain rfl := Option.some.inj h
        refine ⟨(List.takeWhile_prefix _).isInfix, fun v hv => ?_⟩
        obtain rfl := Option.some.inj hv
        exact infix_value hrest
  · simp at h

/-- Each clause is read from a part of the text. -/
theorem exists_of_mem_of_parseAll? {s : Text} {cs : List Clause} (h : parseAll? s = some cs)
    {c : Clause} (hc : c ∈ cs) : ∃ p, p <:+: s ∧ parse? p = some c := by
  obtain ⟨body, rfl, _, hcs⟩ := parseAll?_eq_some h
  obtain ⟨p, hp, hparse⟩ := exists_of_mem_of_mapM_eq_some hcs hc
  have hps : p <:+: body := (cutInto_splitOnP _ body).parts p hp
  exact ⟨p, hps.trans (List.infix_append' [] body [';']), hparse⟩

theorem partOf_of_parseAll? {s : Text} {cs : List Clause} (h : parseAll? s = some cs) :
    ∀ c ∈ cs, c.PartOf s := by
  intro c hc
  obtain ⟨p, hp, hparse⟩ := exists_of_mem_of_parseAll? h hc
  exact (partOf_of_parse? hparse).trans hp

/-- The clauses before the one that repeats a name repeat none. -/
theorem exists_append_of_firstRepeated {seen : List Text} {cs : List Clause} {x : Text}
    (h : firstRepeated seen cs = some x) :
    ∃ before c after, cs = before ++ c :: after ∧ c.name = x ∧
      firstRepeated seen before = none ∧ (x ∈ seen ∨ ∃ b ∈ before, b.name = x) := by
  induction cs generalizing seen with
  | nil => simp [firstRepeated] at h
  | cons c cs ih =>
      rw [firstRepeated] at h
      split at h
      · next hseen =>
        obtain rfl := Option.some.inj h
        exact ⟨[], c, cs, rfl, rfl, rfl, Or.inl (by simpa using hseen)⟩
      · next hseen =>
        obtain ⟨before, d, after, rfl, hd, hbefore, hx⟩ := ih h
        refine ⟨c :: before, d, after, rfl, hd, by rw [firstRepeated, if_neg hseen, hbefore], ?_⟩
        rcases hx with hx | ⟨b, hb, hx⟩
        · rcases List.mem_cons.mp hx with hx | hx
          · exact Or.inr ⟨c, List.mem_cons_self, hx.symm⟩
          · exact Or.inl hx
        · exact Or.inr ⟨b, List.mem_cons_of_mem c hb, hx⟩

theorem exists_of_firstRepeated {seen : List Text} {cs : List Clause} {x : Text}
    (h : firstRepeated seen cs = some x) : ∃ c ∈ cs, c.name = x := by
  obtain ⟨before, c, after, rfl, hc, _⟩ := exists_append_of_firstRepeated h
  exact ⟨c, by simp, hc⟩

end Clause

/-- A declaration is a declarator and the clauses that follow it on the line. -/
theorem Declaration.exists_of_parse? {line : Text} {d : Declaration}
    (h : Declaration.parse? line = some d) :
    ∃ s t, Declarator.parse? line = some (d.declarator, s) ∧ t <:+ line ∧
      Clause.parseAll? t = some d.clauses := by
  obtain ⟨s, t, hd, ht, hcs⟩ := Declaration.parse?_eq_some h
  exact ⟨s, t, hd, (suffix_of_afterGap? ht).trans (Declarator.suffix_of_parse? hd), hcs⟩

theorem Declaration.partOf_of_parse? {line : Text} {d : Declaration}
    (h : Declaration.parse? line = some d) : ∀ c ∈ d.clauses, c.PartOf line := by
  obtain ⟨s, t, _, ht, hcs⟩ := Declaration.exists_of_parse? h
  exact fun c hc => (Clause.partOf_of_parseAll? hcs c hc).trans ht.isInfix

theorem Assignment.partOf_of_parse? {line : Text} {cs : List Clause}
    (h : Assignment.parse? line = some cs) : ∀ c ∈ cs, c.PartOf line := by
  rw [Assignment.parse?] at h
  split at h
  · simp at h
  · exact Clause.partOf_of_parseAll? h

end SJava
