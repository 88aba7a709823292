/-
Headers of methods as they are written.

A header is the word `void`, a name, a list of parameters between parentheses and an opening
brace, with white space between any two of its tokens and after the last (`Header.Spaced`).
What is read from the list of parameters is words, and it is cut at commas that stand outside
quotes.  That no quote, no further parenthesis and no stray word gets through is due to what a
parameter can be read as.  So on one line the headers that can be made known are those that
can be written, and nothing of a signature is lost between the line and the frame that the
body of the method starts with.
-/
import Mathlib.Data.Set.List
import SJava.Proofs.FailedOperations
import SJava.Proofs.Printing

namespace SJava

open Text

/-! ## Words -/

namespace Text

/-- No word goes on into the text: white space begins it, or it is empty. -/
def EndsWord (s : Text) : Prop := ∀ c, s.head? = some c → isBlank c

variable {g s w : Text}

theorem words_indent (hg : isBlankText g) : words (g ++ s) = words s := by
  induction g with
  | nil => rfl
  | cons c g ih =>
      simp only [isBlankText, List.all_cons, Bool.and_eq_true] at hg
      rw [← ih hg.2]
      exact words_append_cons hg.1 [] (g ++ s)

theorem words_of_isBlankText (hg : isBlankText g) : words g = [] := by
  rw [← List.append_nil g, words_indent hg]
  exact words_nil

theorem words_append_blank (hg : isBlankText g) : words (s ++ g) = words s := by
  cases g with
  | nil => rw [List.append_nil]
  | cons c g =>
      simp only [isBlankText, List.all_cons, Bool.and_eq_true] at hg
      rw [words_append_cons hg.1, words_of_isBlankText hg.2, List.append_nil]

theorem words_trim (s : Text) : words (trim s) = words s := by
  obtain ⟨g, hg, hstart⟩ := exists_append_trimStart s
  obtain ⟨g', hg', hend⟩ := exists_trimEnd_append (trimStart s)
  conv_rhs => rw [hstart, words_indent hg, hend, words_append_blank hg']
  rfl

/-- A word at the start of a text, and what follows it. -/
theorem words_append (hne : w ≠ []) (hw : ∀ c ∈ w, isBlank c = false) (hs : EndsWord s) :
    words (w ++ s) = w :: words s := by
  cases s with
  | nil =>
      rw [List.append_nil]
      exact words_eq_singleton hne hw
  | cons c s =>
      have hc : isBlank c := hs c rfl
      rw [words_append_cons hc, words_eq_singleton hne hw, ← List.nil_append (c :: s),
        words_append_cons hc, words_nil]
      rfl

/-- A text that is not blank is white space, a word and a rest that the word does not go on
into. -/
theorem exists_word (h : isBlankText s = false) :
    ∃ g c w r, s = g ++ (c :: w ++ r) ∧ isBlankText g ∧ isBlank c = false ∧ EndsWord r ∧
      words s = (c :: w) :: words r := by
  obtain ⟨g, hg, hs⟩ := exists_append_trimStart s
  cases ht : trimStart s with
  | nil =>
      rw [ht, List.append_nil] at hs
      rw [hs, hg] at h
      exact absurd h (by decide)
  | cons c t =>
      have hc := isBlank_eq_false_of_trimStart ht
      have hsplit : t.takeWhile (!isBlank ·) ++ t.dropWhile (!isBlank ·) = t :=
        List.takeWhile_append_dropWhile
      have hend : EndsWord (t.dropWhile (!isBlank ·)) := by
        intro d hd
        have hnot := List.head?_dropWhile_not (!isBlank ·) t
        rw [hd] at hnot
        simpa using hnot
      have hword : ∀ d ∈ c :: t.takeWhile (!isBlank ·), isBlank d = false := by
        rw [List.forall_mem_cons]
        refine ⟨hc, fun d hd => ?_⟩
        simpa using List.mem_takeWhile_imp hd
      have hparts : s = g ++ (c :: t.takeWhile (!isBlank ·) ++ t.dropWhile (!isBlank ·)) := by
        rw [List.cons_append, hsplit, ← ht, ← hs]
      refine ⟨g, c, _, _, hparts, hg, hc, hend, ?_⟩
      conv_lhs => rw [hparts, words_indent hg, words_append (List.cons_ne_nil _ _) hword hend]

theorem isBlankText_of_words_eq_nil (h : words s = []) : isBlankText s := by
  cases hs : isBlankText s with
  | true => rfl
  | false =>
      obtain ⟨_, c, w, r, _, _, _, _, hwords⟩ := exists_word hs
      rw [h] at hwords
      exact absurd hwords (by simp)

/-- The first word of a line.  If another word ends where the line begins, there is white space
between the two. -/
theorem exists_gap_of_words {ws : List Text} (h : words s = w :: ws) (hline : '\n' ∉ s) :
    ∃ (gap : Gap) (r : Text), s = gap.text ++ (w ++ r) ∧ '\n' ∉ r ∧ EndsWord r ∧ words r = ws ∧
      (EndsWord s → gap.text ≠ []) := by
  have hblank : isBlankText s = false := by
    cases hs : isBlankText s with
    | false => rfl
    | true =>
        rw [words_of_isBlankText hs] at h
        exact absurd h (by simp)
  obtain ⟨g, c, u, r, hs, hg, hc, hend, hwords⟩ := exists_word hblank
  rw [h] at hwords
  obtain ⟨rfl, rfl⟩ := List.cons.inj hwords
  rw [hs] at hline
  simp only [List.mem_append, not_or] at hline
  refine ⟨⟨g, hg, hline.1⟩, r, hs, hline.2.2, hend, rfl, ?_⟩
  intro hstart hnil
  subst hnil
  have hblank : isBlank c := hstart c (by rw [hs]; rfl)
  rw [hc] at hblank
  exact absurd hblank (by decide)

end Text

def WideGap.space : WideGap := ⟨.space, by simp [Gap.space]⟩

theorem WideGap.endsWord_append (gap : WideGap) (s : Text) : EndsWord (gap.text ++ s) := by
  intro c hc
  obtain ⟨d, g, hg⟩ := List.exists_cons_of_ne_nil gap.ne_nil
  rw [hg] at hc
  obtain rfl : d = c := Option.some.inj hc
  exact List.all_eq_true.mp gap.blank d (by rw [hg]; exact List.mem_cons_self)

theorem WideGap.words_append (gap : WideGap) {w : Text} (hne : w ≠ []) (hw : w.all isWord)
    (s : Text) : words (w ++ (gap.text ++ s)) = w :: words s := by
  have hblank : ∀ c ∈ w, isBlank c = false := fun c hc =>
    isBlank_eq_false_of_isWord (List.all_eq_true.mp hw c hc)
  rw [Text.words_append hne hblank (gap.endsWord_append s), words_indent gap.blank]

/-! ## Parameters -/

theorem Ty.mem_declarable_of_ne_unknown {t : Ty} (h : t ≠ .unknown) : t ∈ Ty.declarable := by
  cases t <;> first | decide | exact absurd rfl h

namespace Parameter

/-- The words that a parameter is written with. -/
def words (p : Parameter) : List Text :=
  if p.isFinal then ["final".toList, p.ty.keyword, p.name] else [p.ty.keyword, p.name]

theorem ofWords_eq_ok_iff {isFinal : Bool} {ty name : Text} {p : Parameter} :
    ofWords isFinal ty name = .ok p ↔
      p.isFinal = isFinal ∧ p.ty.keyword = ty ∧ p.name = name ∧ p.Proper := by
  constructor
  · intro h
    have hproper := proper_of_ofWords h
    unfold ofWords Ty.parse at h
    cases ht : Ty.ofKeyword? ty with
    | none => simp [ht] at h
    | some t =>
        have hkeyword : t.keyword = ty := by simpa using List.find?_some ht
        simp only [ht] at h
        split at h
        · simp at h
        split at h
        · obtain rfl := Except.ok.inj h
          exact ⟨rfl, hkeyword, rfl, hproper⟩
        · simp at h
  · intro ⟨hfinal, hty, hname, hproper⟩
    subst hfinal hty hname
    have ht : Ty.parse p.ty.keyword = .ok p.ty := by
      rw [Ty.parse, Ty.ofKeyword?_keyword (Ty.mem_declarable_of_ne_unknown hproper.ty)]
    simp [ofWords, ht, hproper.free, hproper.name]

/-- A parameter is read from its words, and from nothing else. -/
theorem parse_eq_ok_iff {s : Text} {p : Parameter} :
    parse s = .ok p ↔ Text.words s = p.words ∧ p.Proper := by
  constructor
  · intro h
    unfold parse at h
    split at h
    · next ty name hw =>
      split at h
      · simp at h
      · obtain ⟨hfinal, hty, hname, hproper⟩ := ofWords_eq_ok_iff.mp h
        simp [words, hfinal, hty, hname, hw, hproper]
    · next modifier ty name hw =>
      split at h
      · next hmodifier =>
        obtain ⟨hfinal, hty, hname, hproper⟩ := ofWords_eq_ok_iff.mp h
        simp [words, hfinal, hty, hname, hw, hmodifier, hproper]
      · simp at h
    · simp at h
  · intro ⟨hw, hproper⟩
    have hne : p.ty.keyword ≠ "final".toList := by cases p.ty <;> decide
    have hof := ofWords_eq_ok_iff.mpr ⟨rfl, rfl, rfl, hproper⟩
    unfold parse
    rw [hw, words]
    cases hfinal : p.isFinal with
    | true =>
        rw [hfinal] at hof
        exact hof
    | false =>
        rw [hfinal] at hof
        simp only [Bool.false_eq_true, if_false, if_neg hne]
        exact hof

/-- A parameter and the white space around and between its words.  If it begins with the word
`final`, there is white space after that word. -/
structure Spaced where
  before : Gap
  final? : Option WideGap
  ty : Ty
  gap : WideGap
  name : Text
  after : Gap
  proper : Parameter.Proper ⟨name, ty, final?.isSome⟩

namespace Spaced

variable (p : Spaced)

def parameter : Parameter := ⟨p.name, p.ty, p.final?.isSome⟩

/-- The word `final` and what separates it from the type. -/
def finalText : Text :=
  match p.final? with
  | none => []
  | some gap => "final".toList ++ gap.text

def text : Text :=
  p.before.text ++ (p.finalText ++ (p.ty.keyword ++ (p.gap.text ++ (p.name ++ p.after.text))))

theorem name_isWord : p.name ≠ [] ∧ p.name.all isWord := by
  have hname := Name.isVariable_of_isMethod p.proper.name
  exact ⟨(Name.bare_of_isVariable hname).ne_nil, Name.all_isWord_of_isVariable hname⟩

theorem words_text : Text.words p.text = p.parameter.words := by
  obtain ⟨_, _, hkeyword, _, _, hword⟩ := p.ty.keyword_eq_cons
  have hname : Text.words (p.name ++ p.after.text) = [p.name] := by
    have hsolid : ∀ c ∈ p.name, isBlank c = false := fun c hc =>
      isBlank_eq_false_of_isWord (List.all_eq_true.mp p.name_isWord.2 c hc)
    rw [words_append_blank p.after.blank]
    exact words_eq_singleton p.name_isWord.1 hsolid
  have htype : Text.words (p.ty.keyword ++ (p.gap.text ++ (p.name ++ p.after.text))) =
      [p.ty.keyword, p.name] := by
    rw [p.gap.words_append (by rw [hkeyword]; simp) hword, hname]
  rw [text, words_indent p.before.blank, finalText, Parameter.words, parameter]
  cases p.final? with
  | none => exact htype
  | some gap =>
      rw [List.append_assoc, gap.words_append (by decide) (by decide), htype]
      rfl

/-- A parameter is written with word characters and white space. -/
theorem isBlank_or_isWord {c : Char} (hc : c ∈ p.text) : isBlank c ∨ isWord c := by
  obtain ⟨_, _, _, _, _, hkeyword⟩ := p.ty.keyword_eq_cons
  have hgap {gap : Gap} (h : c ∈ gap.text) : isBlank c ∨ isWord c :=
    Or.inl (List.all_eq_true.mp gap.blank c h)
  have hword {w : Text} (hw : w.all isWord) (h : c ∈ w) : isBlank c ∨ isWord c :=
    Or.inr (List.all_eq_true.mp hw c h)
  have hfinal (h : c ∈ p.finalText) : isBlank c ∨ isWord c := by
    rw [finalText] at h
    split at h
    · simp at h
    · rcases List.mem_append.mp h with h | h
      · exact hword (by decide) h
      · exact hgap h
  simp only [text, List.mem_append] at hc
  rcases hc with h | h | h | h | h | h
  · exact hgap h
  · exact hfinal h
  · exact hword hkeyword h
  · exact hgap h
  · exact hword p.name_isWord.2 h
  · exact hgap h

theorem not_mem_text {c : Char} (hblank : isBlank c = false) (hword : isWord c = false) :
    c ∉ p.text := by
  intro hc
  rcases p.isBlank_or_isWord hc with h | h
  · rw [hblank] at h
    exact absurd h (by decide)
  · rw [hword] at h
    exact absurd h (by decide)

theorem oneLine_text : '\n' ∉ p.text := by
  have hword {w : Text} (hw : w.all isWord) : '\n' ∉ w :=
    not_mem_of_isWord hw (isWord_eq_false_of_ascii (by decide))
  obtain ⟨_, _, _, _, _, hkeyword⟩ := p.ty.keyword_eq_cons
  have hfinal : '\n' ∉ p.finalText := by
    rw [finalText]
    split
    · simp
    · next gap _ => simp [gap.oneLine]
  simp [text, p.before.oneLine, hfinal, hword hkeyword, p.gap.oneLine, hword p.name_isWord.2,
    p.after.oneLine]

theorem isItem_text : isItem none p.text := by
  refine isItem_of_forall fun c hc => ?_
  refine ⟨?_, ?_, ?_⟩
  all_goals
    intro h
    subst h
    exact p.not_mem_text (by decide) (isWord_eq_false_of_ascii (by decide)) hc

theorem isBlankText_text : isBlankText p.text = false := by
  cases h : isBlankText p.text with
  | false => rfl
  | true =>
      have hwords := p.words_text
      rw [words_of_isBlankText h, Parameter.words] at hwords
      split at hwords <;> exact absurd hwords (by simp)

theorem parse_trim_text : parse (trim p.text) = .ok p.parameter := by
  rw [parse_eq_ok_iff, words_trim, p.words_text]
  exact ⟨rfl, p.proper⟩

end Spaced

theorem exists_spaced_of_proper {p : Parameter} (hp : p.Proper) :
    ∃ sp : Spaced, sp.parameter = p := by
  obtain ⟨name, ty, isFinal⟩ := p
  cases isFinal with
  | true => exact ⟨⟨.empty, some .space, ty, .space, name, .empty, hp⟩, rfl⟩
  | false => exact ⟨⟨.empty, none, ty, .space, name, .empty, hp⟩, rfl⟩

/-- What can be read as a parameter on one line is a parameter with white space. -/
theorem exists_spaced {s : Text} {p : Parameter} (h : parse s = .ok p) (hline : '\n' ∉ s) :
    ∃ sp : Spaced, sp.text = s ∧ sp.parameter = p := by
  obtain ⟨hw, hproper⟩ := parse_eq_ok_iff.mp h
  obtain ⟨name, ty, isFinal⟩ := p
  -- A type, a name and no more words.
  have htype {t : Text} (hwords : Text.words t = [ty.keyword, name]) (ht : '\n' ∉ t) :
      ∃ (first : Gap) (gap : WideGap) (after : Gap),
        t = first.text ++ (ty.keyword ++ (gap.text ++ (name ++ after.text))) ∧
          (EndsWord t → first.text ≠ []) := by
    obtain ⟨first, r, htext, hr, hend, hrest, hwide⟩ := exists_gap_of_words hwords ht
    obtain ⟨gap, r', htext', hr', _, hrest', hwide'⟩ := exists_gap_of_words hrest hr
    refine ⟨first, ⟨gap, hwide' hend⟩, ⟨r', isBlankText_of_words_eq_nil hrest', hr'⟩, ?_, hwide⟩
    rw [htext, htext']
  cases isFinal with
  | false =>
      obtain ⟨before, gap, after, htext, _⟩ := htype hw hline
      exact ⟨⟨before, none, ty, gap, name, after, hproper⟩, htext.symm, rfl⟩
  | true =>
      obtain ⟨before, r, htext, hr, hend, hrest, _⟩ := exists_gap_of_words hw hline
      obtain ⟨final, gap, after, htext', hwide⟩ := htype hrest hr
      refine ⟨⟨before, some ⟨final, hwide hend⟩, ty, gap, name, after, hproper⟩, ?_, rfl⟩
      rw [htext, htext', Spaced.text, Spaced.finalText, List.append_assoc]

end Parameter

/-! ## Headers -/

namespace Header

/-- What stands between the parentheses: the parameters and a comma between any two of them, or
white space if there are no parameters. -/
def listText (inside : Gap) : List Parameter.Spaced → Text
  | [] => inside.text
  | p :: ps => [','].intercalate ((p :: ps).map (·.text))

theorem oneLine_listText (inside : Gap) (ps : List Parameter.Spaced) :
    '\n' ∉ listText inside ps := by
  cases ps with
  | nil => exact inside.oneLine
  | cons p ps =>
      rw [listText, mem_intercalate_comma (by decide)]
      intro ⟨v, hv, hmem⟩
      obtain ⟨q, _, rfl⟩ := List.mem_map.mp hv
      exact q.oneLine_text hmem

theorem items_listText (inside : Gap) (ps : List Parameter.Spaced) :
    items (listText inside ps) = ps.map fun p => trim p.text := by
  cases ps with
  | nil => exact items_of_isBlankText inside.blank
  | cons p ps =>
      rw [listText, items_intercalate_trim, List.map_map]
      · rfl
      · intro v hv
        obtain ⟨q, _, rfl⟩ := List.mem_map.mp hv
        exact ⟨q.isItem_text, q.isBlankText_text⟩

/-- A header and the white space between and after its tokens. -/
structure Spaced where
  gap : WideGap
  name : Text
  isName : Name.isMethod name
  free : Name.isReserved name = false
  left : Gap
  inside : Gap
  parameters : List Parameter.Spaced
  right : Gap
  after : Gap

namespace Spaced

variable (h : Spaced)

def signature : Signature := ⟨h.name, h.parameters.map (·.parameter)⟩

def list : Text := listText h.inside h.parameters

def text : Text :=
  "void".toList ++ (h.gap.text ++ (h.name ++ (h.left.text ++ '(' ::
    (h.list ++ ')' :: (h.right.text ++ '\x7b' :: h.after.text)))))

theorem oneLine_list : '\n' ∉ h.list := oneLine_listText h.inside h.parameters

theorem oneLine_text : '\n' ∉ h.text := by
  have hname := Name.not_mem_of_isVariable (Name.isVariable_of_isMethod h.isName)
    (isWord_eq_false_of_ascii (c := '\n') (by decide))
  simp [text, h.gap.oneLine, hname, h.left.oneLine, h.oneLine_list, h.right.oneLine,
    h.after.oneLine]

/-- The name and the list of parameters are read back. -/
theorem parse?_text : parse? h.text = some ⟨h.name, h.list⟩ := by
  have hvar := Name.isVariable_of_isMethod h.isName
  have hstart (s : Text) : trimStart (h.name ++ s) = h.name ++ s :=
    (Name.bare_of_isVariable hvar).trimStart_append s
  have hblock : beforeBlock? (h.list ++ ')' :: (h.right.text ++ '\x7b' :: h.after.text)) =
      some h.list :=
    beforeBlock?_eq_some_iff.mpr ⟨_, _, h.right.blank, h.after.blank, rfl⟩
  have hopen (s : Text) : afterParenthesis? (h.left.text ++ '(' :: s) = some s :=
    afterParenthesis?_eq_some_iff.mpr ⟨_, h.left.blank, rfl⟩
  have hword (s : Text) := takeWhile_isWord_gap (c := '(') (Name.all_isWord_of_isVariable hvar)
    h.left.blank (isWord_eq_false_of_ascii (by decide)) s
  have hline : h.list.contains '\n' = false := by simpa using h.oneLine_list
  rw [parse?, text, after?_eq_some_iff.mpr rfl, Option.bind_some, h.gap.afterGap?_append, hstart]
  simp only [bind, Option.bind_some, hword, hopen, hblock, h.isName, hline]
  rfl

/-- The signature is read back. -/
theorem signature_list : Header.signature ⟨h.name, h.list⟩ = .ok h.signature := by
  have hread : (items h.list).mapM Parameter.parse = .ok (h.parameters.map (·.parameter)) := by
    rw [list, items_listText, mapM_eq_ok_iff, List.forall₂_map_left_iff, List.forall₂_map_right_iff,
      List.forall₂_same]
    intro p _
    exact p.parse_trim_text
  simp only [Header.signature, h.free, hread]
  rfl

theorem proper_signature : h.signature.Proper := by
  refine ⟨h.isName, h.free, fun p hp => ?_⟩
  obtain ⟨q, _, rfl⟩ := List.mem_map.mp hp
  exact q.proper

end Spaced

/-- The pieces of a list that are read as parameters are parameters with white space. -/
theorem exists_spaced_of_forall₂ {pieces : List Text} {ps : List Parameter}
    (h : List.Forall₂ (fun s p => Parameter.parse (trim s) = .ok p) pieces ps)
    (hline : ∀ s ∈ pieces, '\n' ∉ s) :
    ∃ sps : List Parameter.Spaced, sps.map (·.text) = pieces ∧ sps.map (·.parameter) = ps := by
  induction h with
  | nil => exact ⟨[], rfl, rfl⟩
  | @cons s p pieces ps hs _ ih =>
      rw [List.forall_mem_cons] at hline
      have hread : Parameter.parse s = .ok p := by
        rw [Parameter.parse_eq_ok_iff, ← words_trim, ← Parameter.parse_eq_ok_iff]
        exact hs
      obtain ⟨sp, rfl, rfl⟩ := Parameter.exists_spaced hread hline.1
      obtain ⟨sps, rfl, rfl⟩ := ih hline.2
      exact ⟨sp :: sps, rfl, rfl⟩

/-- A list that is read as parameters is blank, or it is such parameters with commas between
them. -/
theorem exists_listText {list : Text} {ps : List Parameter}
    (h : (items list).mapM Parameter.parse = .ok ps) (hline : '\n' ∉ list) :
    ∃ (inside : Gap) (sps : List Parameter.Spaced),
      listText inside sps = list ∧ sps.map (·.parameter) = ps := by
  rw [items] at h
  split at h
  · next hblank => exact ⟨⟨list, hblank, hline⟩, [], rfl, Except.ok.inj h⟩
  · rw [mapM_eq_ok_iff, List.forall₂_map_left_iff] at h
    have hpieces : ∀ s ∈ cutItems none list, '\n' ∉ s := fun s hs hmem =>
      hline (((cutInto_cutItems none list).parts s hs).subset hmem)
    obtain ⟨sps, htext, hps⟩ := exists_spaced_of_forall₂ h hpieces
    cases sps with
    | nil => exact absurd htext.symm (cutItems_ne_nil none list)
    | cons p sps =>
        refine ⟨.empty, p :: sps, ?_, hps⟩
        rw [listText, htext, intercalate_cutItems]

/-- What can be read as a header on one line is a header with white space. -/
theorem exists_spaced {line : Text} {hd : Header} {m : Signature}
    (hparse : parse? line = some hd) (hm : hd.signature = .ok m) (hline : '\n' ∉ line) :
    ∃ h : Spaced, h.text = line ∧ h.signature = m := by
  obtain ⟨hfree, hread⟩ := signature_eq_ok hm
  have hname : m.name = hd.name := name_of_signature hm
  have hmethod := isMethod_of_parse? hparse
  simp only [parse?, bind, Option.bind_eq_some_iff] at hparse
  obtain ⟨s, ⟨u, hvoid, hgap⟩, t, hopen, list, hblock, hhd⟩ := hparse
  split at hhd
  · obtain rfl := Option.some.inj hhd
    obtain rfl := after?_eq_some_iff.mp hvoid
    obtain ⟨g, hne, hg, rfl⟩ := exists_append_of_afterGap? hgap
    obtain ⟨left, hleft, hs⟩ := afterParenthesis?_eq_some_iff.mp hopen
    obtain ⟨right, after, hright, hafter, rfl⟩ := beforeBlock?_eq_some_iff.mp hblock
    have hparts : s = s.takeWhile isWord ++
        (left ++ '(' :: (list ++ ')' :: (right ++ '\x7b' :: after))) := by
      rw [← hs, List.takeWhile_append_dropWhile]
    -- The line feed is kept out of every part.
    have hfeed := hline
    rw [hparts] at hfeed
    simp only [List.mem_append, List.mem_cons, not_or] at hfeed
    obtain ⟨_, hg', _, hleft', _, hlist', _, hright', _, hafter'⟩ := hfeed
    obtain ⟨inside, sps, hlist, hps⟩ := exists_listText hread hlist'
    refine ⟨⟨⟨⟨g, hg, hg'⟩, hne⟩, s.takeWhile isWord, hmethod, hfree, ⟨left, hleft, hleft'⟩,
      inside, sps, ⟨right, hright, hright'⟩, ⟨after, hafter, hafter'⟩⟩, ?_, ?_⟩
    · conv_rhs => rw [hparts]
      rw [Spaced.text, Spaced.list, hlist]
    · cases m
      simp only at hname hps
      simp only [Spaced.signature, hname, hps]
  · simp at hhd

/-- The signatures that can be written. -/
theorem exists_spaced_iff {m : Signature} : (∃ h : Spaced, h.signature = m) ↔ m.Proper := by
  constructor
  · intro ⟨h, hm⟩
    rw [← hm]
    exact h.proper_signature
  · intro hm
    have hps : m.parameters ∈ Set.range (List.map Parameter.Spaced.parameter) := by
      rw [Set.range_list_map]
      intro p hp
      exact Parameter.exists_spaced_of_proper (hm.parameters p hp)
    obtain ⟨sps, hsps⟩ := hps
    refine ⟨⟨.space, m.name, hm.name, hm.free, .empty, .empty, sps, .empty, .empty⟩, ?_⟩
    rw [Spaced.signature, hsps]

end Header

/-! ## From the line to the frame -/

namespace Env

/-- One method more is known, under a name of its own. -/
structure Registers (e : Env) (m : Signature) (e' : Env) : Prop where
  signature : e'.signature? m.name = some m
  others : ∀ x, x ≠ m.name → e'.signature? x = e.signature? x
  globals : e'.globals = e.globals
  locals : e'.locals = e.locals

theorem registers_addMethod (e : Env) (m : Signature) :
    Registers e m { e with methods := m :: e.methods } where
  signature := by simp [signature?]
  others x hx := by simp [signature?, Ne.symm hx]
  globals := rfl
  locals := rfl

theorem failure_headerLine_survey_iff {e : Env} {line : Text} :
    (e.headerLine .survey line).failure = none ↔
      e.isGlobal ∧ ∃ hd m, Header.parse? line = some hd ∧ hd.signature = .ok m ∧
        e.signature? m.name = none := by
  cases he : e.isGlobal with
  | false => cases hhd : Header.parse? line <;> simp [headerLine, hhd, he, Outcome.fail]
  | true =>
      rw [← Outcome.isSome_result?_iff, result?_headerLine_survey (isGlobal_iff.mp he)]
      cases Header.parse? line with
      | none => simp
      | some hd => cases hm : hd.signature <;> simp [hm]

theorem headerLine_survey_text {e : Env} {h : Header.Spaced} (he : e.isGlobal)
    (hnew : e.signature? h.name = none) :
    e.headerLine .survey h.text = .ok { e with methods := h.signature :: e.methods } := by
  have hadd : e.signature? h.signature.name = none := hnew
  refine Outcome.result?_eq_some_iff_eq_ok.mp ?_
  rw [result?_headerLine_survey (isGlobal_iff.mp he), h.parse?_text, Option.bind_some]
  simp only [h.signature_list, hadd, if_true]

theorem headerLine_inspection_text {e : Env} {h : Header.Spaced} (he : e.isGlobal) :
    e.headerLine .inspection h.text = e.enterMethod h.name := by
  simp only [headerLine, h.parse?_text, he]
  rfl

/-- The headers of one line that can be made known are those that can be written, and a signature
can be written if its names and types are proper.  Outside every block and under a name that is
still free, the header makes its signature known and changes nothing else.  The body that it then
opens starts with a frame that holds the parameters and nothing else, all with values and none of
them global; it opens if and only if no two parameters share a name. -/
theorem headers_read_as_written :
    (∀ m : Signature, (∃ h : Header.Spaced, h.signature = m) ↔ m.Proper) ∧
    (∀ h : Header.Spaced, '\n' ∉ h.text) ∧
    (∀ (e : Env) (line : Text), '\n' ∉ line →
      ((e.headerLine .survey line).failure = none ↔
        e.isGlobal ∧ ∃ h : Header.Spaced, h.text = line ∧ e.signature? h.name = none)) ∧
    (∀ (e : Env) (h : Header.Spaced), e.isGlobal → e.signature? h.name = none →
      ∃ e', e.headerLine .survey h.text = .ok e' ∧ Registers e h.signature e' ∧
        ((e'.headerLine .inspection h.text).failure = none ↔
          (h.signature.parameters.map (·.name)).Nodup) ∧
        ((h.signature.parameters.map (·.name)).Nodup →
          e'.headerLine .inspection h.text =
            .ok { e' with locals := [⟨some 0, (h.signature.parameters.map fun p =>
              ⟨p.name, ⟨p.ty, p.isFinal, false⟩, true⟩).reverse⟩] })) := by
  refine ⟨fun m => Header.exists_spaced_iff, fun h => h.oneLine_text, ?_, ?_⟩
  · intro e line hline
    rw [failure_headerLine_survey_iff]
    refine and_congr_right fun _ => ?_
    constructor
    · intro ⟨hd, m, hparse, hm, hnew⟩
      obtain ⟨h, htext, rfl⟩ := Header.exists_spaced hparse hm hline
      exact ⟨h, htext, hnew⟩
    · intro ⟨h, htext, hnew⟩
      rw [← htext]
      exact ⟨_, _, h.parse?_text, h.signature_list, hnew⟩
  · intro e h he hnew
    let e' : Env := { e with methods := h.signature :: e.methods }
    have hregisters : Registers e h.signature e' := registers_addMethod e h.signature
    have henter : (e'.headerLine .inspection h.text).result? =
        if (h.signature.parameters.map (·.name)).Nodup then
          some { e' with locals := [Frame.ofParameters h.signature.parameters] }
        else none := by
      rw [headerLine_inspection_text (e := e') he]
      exact result?_enterMethod (e := e') (isGlobal_iff.mp he) hregisters.signature
    refine ⟨e', headerLine_survey_text he hnew, hregisters, ?_, ?_⟩
    · rw [← Outcome.isSome_result?_iff, henter]
      split <;> simp [*]
    · intro hdistinct
      rw [if_pos hdistinct] at henter
      exact Outcome.result?_eq_some_iff_eq_ok.mp henter

end Env

def sampleHeader : Header.Spaced where
  gap := .space
  name := "f".toList
  isName := by decide +kernel
  free := by decide
  left := .empty
  inside := .empty
  parameters :=
    [⟨.space, some .space, .int, .space, "a".toList, .space,
        ⟨by decide +kernel, by decide, by decide⟩⟩,
      ⟨.empty, none, .string, .space, "b".toList, .empty,
        ⟨by decide +kernel, by decide, by decide⟩⟩]
  right := .space
  after := .empty

theorem sampleHeader_read_as_written :
    sampleHeader.text = "void f( final int a ,String b) \x7b".toList ∧
      ∃ e', Env.empty.headerLine .survey sampleHeader.text = .ok e' ∧
        e'.signature? "f".toList =
          some ⟨"f".toList, [⟨"a".toList, .int, true⟩, ⟨"b".toList, .string, false⟩]⟩ ∧
        e'.headerLine .inspection sampleHeader.text = .ok { e' with
          locals := [⟨some 0, [⟨"b".toList, ⟨.string, false, false⟩, true⟩,
            ⟨"a".toList, ⟨.int, true, false⟩, true⟩]⟩] } := by
  obtain ⟨_, _, _, hread⟩ := Env.headers_read_as_written
  obtain ⟨e', hsurvey, hregisters, _, henter⟩ := hread .empty sampleHeader rfl rfl
  exact ⟨by decide, e', hsurvey, hregisters.signature, henter (by decide)⟩

end SJava
