/-
Slices of a line by the numbers of bytes.

The clauses of a statement, a condition and the items of a list are parts of a line, and where
such a part begins and ends is looked for separately.  Neither search knows of the other, so nothing
but the grammar of the line orders the two bytes that they find.  `Text.slice?` takes the text
between two bytes if it exists: the first byte is not past the second, and at each of them a
character begins or the text ends.  Every slice that reading a line calls for exists, and it is what
the line is read as (`Text.slicesFit`).
-/
import SJava.Proofs.Printing

namespace SJava

open Text

namespace Text

/-! ## Bytes -/

@[simp] theorem utf8Length_nil : utf8Length [] = 0 := rfl

@[simp] theorem utf8Length_cons (c : Char) (s : Text) :
    utf8Length (c :: s) = c.utf8Size + utf8Length s := rfl

@[simp] theorem utf8Length_append (u v : Text) :
    utf8Length (u ++ v) = utf8Length u + utf8Length v := by
  induction u with
  | nil => simp
  | cons c u ih =>
      rw [List.cons_append, utf8Length_cons, utf8Length_cons, ih]
      omega

/-- The text from byte `n` on, if a character begins there or the text ends. -/
def dropBytes? : Nat → Text → Option Text
  | 0, s => some s
  | _ + 1, [] => none
  | n + 1, c :: s => if c.utf8Size ≤ n + 1 then dropBytes? (n + 1 - c.utf8Size) s else none

/-- The first `n` bytes of a text, if a character begins after them or the text ends. -/
def takeBytes? : Nat → Text → Option Text
  | 0, _ => some []
  | _ + 1, [] => none
  | n + 1, c :: s =>
    if c.utf8Size ≤ n + 1 then (takeBytes? (n + 1 - c.utf8Size) s).map (c :: ·) else none

/-- The text between two bytes. -/
def slice? (s : Text) (start stop : Nat) : Option Text :=
  if start ≤ stop then (dropBytes? start s).bind (takeBytes? (stop - start)) else none

theorem le_of_slice? {s t : Text} {start stop : Nat} (h : slice? s start stop = some t) :
    start ≤ stop := by
  by_contra hlt
  rw [slice?, if_neg hlt] at h
  exact absurd h (by simp)

theorem exists_utf8Size_add (c : Char) (n : Nat) : ∃ m, c.utf8Size + n = m + 1 := by
  have hpos := c.utf8Size_pos
  exact ⟨c.utf8Size + n - 1, by omega⟩

theorem dropBytes?_cons (c : Char) (n : Nat) (s : Text) :
    dropBytes? (c.utf8Size + n) (c :: s) = dropBytes? n s := by
  obtain ⟨m, hm⟩ := exists_utf8Size_add c n
  rw [hm, dropBytes?, if_pos (by omega), ← hm, Nat.add_sub_cancel_left]

theorem takeBytes?_cons (c : Char) (n : Nat) (s : Text) :
    takeBytes? (c.utf8Size + n) (c :: s) = (takeBytes? n s).map (c :: ·) := by
  obtain ⟨m, hm⟩ := exists_utf8Size_add c n
  rw [hm, takeBytes?, if_pos (by omega), ← hm, Nat.add_sub_cancel_left]

theorem dropBytes?_append (u s : Text) : dropBytes? (utf8Length u) (u ++ s) = some s := by
  induction u with
  | nil => cases s <;> rfl
  | cons c u ih => rw [utf8Length_cons, List.cons_append, dropBytes?_cons, ih]

theorem takeBytes?_append (u s : Text) : takeBytes? (utf8Length u) (u ++ s) = some u := by
  induction u with
  | nil => cases s <;> rfl
  | cons c u ih =>
      rw [utf8Length_cons, List.cons_append, takeBytes?_cons, ih]
      rfl

/-- Where a text falls into parts, each part is a slice. -/
theorem slice?_append (u v w : Text) :
    slice? (u ++ (v ++ w)) (utf8Length u) (utf8Length (u ++ v)) = some v := by
  have hle : utf8Length u ≤ utf8Length (u ++ v) := by
    rw [utf8Length_append]
    omega
  have hlength : utf8Length (u ++ v) - utf8Length u = utf8Length v := by
    rw [utf8Length_append]
    omega
  rw [slice?, if_pos hle, dropBytes?_append, Option.bind_some, hlength, takeBytes?_append]

/-! ## The end of a line -/

/-- The characters of a text that are not white space. -/
def marks (s : Text) : Text := s.filter fun c => !isBlank c

theorem marks_append (u v : Text) : marks (u ++ v) = marks u ++ marks v := List.filter_append ..

theorem marks_eq_nil_iff {g : Text} : marks g = [] ↔ isBlankText g := by
  rw [marks, List.filter_eq_nil_iff, isBlankText, List.all_eq_true]
  simp

theorem marks_cons {c : Char} (hc : isBlank c = false) (s : Text) :
    marks (c :: s) = c :: marks s := List.filter_cons_of_pos (by simp [hc])

/-- The byte at which the longest end of a text begins whose marks are `w`.  If there is no such end
it is where the text ends. -/
def tailStart (w : Text) : Text → Nat
  | [] => 0
  | c :: s => if marks (c :: s) = w then 0 else c.utf8Size + tailStart w s

theorem tailStart_of_forall {w s : Text} (h : ∀ v, v <:+ s → marks v ≠ w) :
    tailStart w s = utf8Length s := by
  induction s with
  | nil => rfl
  | cons c s ih =>
      rw [tailStart, if_neg (h _ List.suffix_rfl), utf8Length_cons,
        ih fun v hv => h v (hv.trans (List.suffix_cons c s))]

/-- An end that begins after a mark is the longest with its marks. -/
theorem tailStart_append {w u v : Text} (hv : marks v = w)
    (hu : ∀ c ∈ u.getLast?, isBlank c = false) : tailStart w (u ++ v) = utf8Length u := by
  induction u with
  | nil =>
      cases v with
      | nil => rfl
      | cons c v => rw [List.nil_append, tailStart, if_pos hv]; rfl
  | cons c u ih =>
      have hne : marks (c :: u) ≠ [] := by
        intro hnil
        have hlast := List.getLast?_eq_some_getLast (List.cons_ne_nil c u)
        have hblank := List.filter_eq_nil_iff.mp hnil _ (List.mem_of_getLast? hlast)
        rw [hu _ hlast] at hblank
        exact hblank rfl
      have hlonger : marks (c :: (u ++ v)) ≠ w := by
        intro heq
        rw [← List.cons_append, marks_append, hv] at heq
        exact hne (List.append_left_eq_self.mp heq)
      rw [List.cons_append, tailStart, if_neg hlonger, utf8Length_cons, ih fun d hd => hu d ?_]
      cases u with
      | nil => simp at hd
      | cons b u => rwa [List.getLast?_cons_cons]

theorem tailStart_trimEnd {w v : Text} (hv : marks v = w) (u : Text) :
    tailStart w (u ++ v) = utf8Length (trimEnd u) := by
  obtain ⟨g, hg, hu⟩ := exists_trimEnd_append u
  have hmarks : marks (g ++ v) = w := by rw [marks_append, marks_eq_nil_iff.mpr hg, hv]; rfl
  conv_lhs => rw [hu, List.append_assoc]
  refine tailStart_append hmarks fun c hc => ?_
  rw [getLast?_trimEnd] at hc
  simpa using List.find?_some hc

/-- What stands before the end of a line, without the white space at its own end. -/
theorem slice?_tailStart {w v : Text} (hv : marks v = w) {u b : Text}
    (hub : trimEnd (u ++ b) = u ++ trimEnd b) :
    slice? (u ++ (b ++ v)) (utf8Length u) (tailStart w (u ++ (b ++ v))) = some (trimEnd b) := by
  obtain ⟨g, _, hb⟩ := exists_trimEnd_append b
  have hline : u ++ (b ++ v) = u ++ (trimEnd b ++ (g ++ v)) := by
    rw [← List.append_assoc (trimEnd b), ← hb]
  have hstop : tailStart w (u ++ (b ++ v)) = utf8Length (u ++ trimEnd b) := by
    rw [← List.append_assoc, tailStart_trimEnd hv, hub]
  rw [hstop, hline, slice?_append]

/-- The byte at which the end `rest` of a text begins. -/
def startOf (s rest : Text) : Nat := utf8Length s - utf8Length rest

theorem startOf_append (u rest : Text) : startOf (u ++ rest) rest = utf8Length u := by
  rw [startOf, utf8Length_append]
  omega

end Text

/-! ## Statements -/

/-- The byte at which the end of a statement begins: its semicolon and the white space around it. -/
def statementEnd (line : Text) : Nat := tailStart [';'] line

/-- The byte at which the clauses of a declaration begin. -/
def Declaration.bodyStart (line : Text) : Nat :=
  (((Declarator.words? line).bind fun (_, _, s) => afterGap? s).map line.startOf).getD 0

namespace Clause

theorem exists_body_of_parseAll? {s : Text} {cs : List Clause} (h : parseAll? s = some cs) :
    ∃ b, s = b ++ [';'] ∧ b ≠ [] ∧ (b.splitOn ',').mapM parse? = some cs := by
  obtain ⟨b, hb, _, hcs⟩ := parseAll?_eq_some h
  refine ⟨b, hb, ?_, hcs⟩
  rintro rfl
  have hnone : (([] : Text).splitOn ',').mapM parse? = none := rfl
  rw [hnone] at hcs
  exact absurd hcs (by simp)

/-- The clauses are what stands between `u` and the end of the statement.  They begin with a mark,
so the white space before the semicolon does not reach back over that at the end of `u`. -/
theorem slice?_body {c : Char} (hc : isBlank c = false) (u : Text) {b : Text} {cs : List Clause}
    (h : ((c :: b).splitOn ',').mapM parse? = some cs) :
    ∃ body, slice? (u ++ (c :: b ++ [';'])) (utf8Length u)
        (statementEnd (u ++ (c :: b ++ [';']))) = some body ∧
      (body.splitOn ',').mapM parse? = some cs ∧ readAll body = cs := by
  have hbody : trim (c :: b) = trimEnd (c :: b) := by rw [trim, trimStart_cons hc]
  refine ⟨trim (c :: b), ?_, by rw [mapM_parse?_trim, h], readAll_eq_of_mapM h⟩
  rw [hbody]
  exact slice?_tailStart rfl (trimEnd_append_cons hc u b)

end Clause

theorem slice?_declaration {line : Text} {d : Declaration} (h : Declaration.parse? line = some d) :
    ∃ body, slice? line (Declaration.bodyStart line) (statementEnd line) = some body ∧
      (body.splitOn ',').mapM Clause.parse? = some d.clauses ∧ Clause.readAll body = d.clauses := by
  obtain ⟨s, t, hd, ht, hcs⟩ := Declaration.parse?_eq_some h
  have hstart : Declaration.bodyStart line = line.startOf t := by
    simp [Declaration.bodyStart, Declarator.words?_eq, hd, ht]
  obtain ⟨u, rfl⟩ := (suffix_of_afterGap? ht).trans (Declarator.suffix_of_parse? hd)
  obtain ⟨b, rfl, hne, hb⟩ := Clause.exists_body_of_parseAll? hcs
  obtain ⟨c, b, rfl⟩ := List.exists_cons_of_ne_nil hne
  have hc : isBlank c = false := isBlank_eq_false_of_trimStart (trimStart_eq_of_afterGap? ht)
  rw [hstart, startOf_append]
  exact Clause.slice?_body hc u hb

theorem slice?_assignment {line : Text} {cs : List Clause} (h : Assignment.parse? line = some cs) :
    ∃ body, slice? line 0 (statementEnd line) = some body ∧
      (body.splitOn ',').mapM Clause.parse? = some cs ∧ Clause.readAll body = cs := by
  obtain ⟨b, rfl, hne, hb⟩ := Clause.exists_body_of_parseAll? (Assignment.parseAll?_of_parse? h)
  obtain ⟨c, b, rfl⟩ := List.exists_cons_of_ne_nil hne
  exact Clause.slice?_body (Assignment.head?_of_parse? h) [] hb

/-! ## Conditions -/

namespace Condition

/-- The byte after the parenthesis that opens a condition. -/
def start (line : Text) : Nat := ((opening? line).map line.startOf).getD 0

/-- The byte at which the end of a condition begins: the closing parenthesis, the brace, and the
white space around them. -/
def stop (line : Text) : Nat := tailStart [')', '\x7b'] line

theorem exists_append_of_opening? {line s : Text} (h : opening? line = some s) :
    ∃ u, line = u ++ '(' :: s := by
  obtain ⟨t, ht, hs⟩ := Option.bind_eq_some_iff.mp h
  obtain ⟨g, _, rfl⟩ := afterParenthesis?_eq_some_iff.mp hs
  have hsuffix : '(' :: s <:+ line := by
    refine (List.suffix_append g _).trans (List.IsSuffix.trans ?_ (trimStart_suffix line))
    rcases Option.or_eq_some_iff.mp ht with ht | ⟨_, ht⟩ <;> exact suffix_of_after? ht
  obtain ⟨u, hu⟩ := hsuffix
  exact ⟨u, hu.symm⟩

theorem isSome_beforeBlock?_of_marks {v : Text} (h : marks v = [')', '\x7b']) (u : Text) :
    (beforeBlock? (u ++ v)).isSome := by
  obtain ⟨g, r, rfl, _, _, hr⟩ := List.filter_eq_cons_iff.mp h
  obtain ⟨g', r', rfl, hg', _, hr'⟩ := List.filter_eq_cons_iff.mp hr
  have hblank : isBlankText g' := marks_eq_nil_iff.mp (List.filter_eq_nil_iff.mpr hg')
  have hblank' : isBlankText r' := marks_eq_nil_iff.mp hr'
  rw [Option.isSome_iff_exists]
  refine ⟨u ++ g, beforeBlock?_eq_some_iff.mpr ⟨g', r', hblank, hblank', ?_⟩⟩
  rw [List.append_assoc]

/-- The end of a condition cannot reach back over the parenthesis that opens it, so it is found
after that parenthesis if it is found on the line. -/
theorem tailStart_of_beforeBlock? {s : Text} (h : beforeBlock? s = none) {u : Text}
    (hu : u = [] ∨ ∃ u', u = u' ++ ['(']) :
    tailStart [')', '\x7b'] (u ++ s) = utf8Length (u ++ s) := by
  refine tailStart_of_forall fun v hv hmarks => ?_
  have hs : v <:+ s := by
    rcases hu with rfl | ⟨u', rfl⟩
    · exact hv
    · rw [List.append_assoc, List.singleton_append] at hv
      have hparen : '(' ∉ v := by
        intro hmem
        have hmark : '(' ∈ marks v := List.mem_filter.mpr ⟨hmem, by decide⟩
        rw [hmarks] at hmark
        exact absurd hmark (by decide)
      rcases List.suffix_or_suffix_of_suffix hv (List.suffix_append u' ('(' :: s)) with hv | hv
      · rcases List.suffix_cons_iff.mp hv with rfl | hv
        · exact absurd List.mem_cons_self hparen
        · exact hv
      · exact absurd (hv.subset List.mem_cons_self) hparen
  obtain ⟨p, rfl⟩ := hs
  have hsome := isSome_beforeBlock?_of_marks hmarks p
  rw [h] at hsome
  exact absurd hsome (by decide)

/-- What is sliced out of a line is its condition, whatever the line is. -/
theorem slice?_condition (line : Text) :
    ∃ s, slice? line (start line) (stop line) = some s ∧ trim s = text line := by
  obtain ⟨u, s, rfl, hs, hstart, hu⟩ : ∃ u s, line = u ++ s ∧ (opening? line).getD line = s ∧
      start line = utf8Length u ∧ (u = [] ∨ ∃ u', u = u' ++ ['(']) := by
    cases h : opening? line with
    | none => exact ⟨[], line, rfl, rfl, by rw [start, h]; rfl, Or.inl rfl⟩
    | some s =>
        obtain ⟨u, hline⟩ := exists_append_of_opening? h
        refine ⟨u ++ ['('], s, by simp [hline], rfl, ?_, Or.inr ⟨u, rfl⟩⟩
        rw [start, h, Option.map_some, Option.getD_some, hline, ← List.singleton_append (x := '('),
          ← List.append_assoc, startOf_append]
  rw [hstart, text, hs, stop]
  cases hb : beforeBlock? s with
  | none =>
      rw [tailStart_of_beforeBlock? hb hu]
      refine ⟨s, ?_, rfl⟩
      have hslice := slice?_append u s []
      rwa [List.append_nil] at hslice
  | some r =>
      obtain ⟨g, g', hg, hg', rfl⟩ := beforeBlock?_eq_some_iff.mp hb
      refine ⟨trimEnd r, slice?_tailStart ?_ ?_, trim_trimEnd r⟩
      · rw [marks_cons (by decide), marks_append, marks_eq_nil_iff.mpr hg, List.nil_append,
          marks_cons (by decide), marks_eq_nil_iff.mpr hg']
      · rcases hu with rfl | ⟨u', rfl⟩
        · rfl
        · rw [List.append_assoc, List.singleton_append, trimEnd_append_cons (by decide),
            trimEnd_cons (by decide), List.append_assoc, List.singleton_append]

end Condition

/-! ## Items -/

namespace Text

/-- The bytes between which a list is cut into its items, when `quote` is open at byte `index` and
the present item begins at byte `start`. -/
def boundsFrom : Option Char → Nat → Nat → Text → List (Nat × Nat)
  | _, start, index, [] => [(start, index)]
  | quote, start, index, c :: s =>
    if quote = none ∧ c = ',' then (start, index) :: boundsFrom none (index + 1) (index + 1) s
    else boundsFrom (quoteAfter quote c) start (index + c.utf8Size) s

def itemBounds (s : Text) : List (Nat × Nat) := boundsFrom none 0 0 s

/-- The invariant is that the present item begins after `u`, and that `v` of it has been passed. -/
theorem map_slice?_boundsFrom (quote : Option Char) (u v s : Text) :
    (boundsFrom quote (utf8Length u) (utf8Length (u ++ v)) s).map
        (fun b => slice? (u ++ (v ++ s)) b.1 b.2) =
      ((cutItems quote s).modifyHead (v ++ ·)).map some := by
  induction s generalizing quote u v with
  | nil =>
      rw [boundsFrom, List.map_singleton, slice?_append]
      simp [cutItems]
  | cons c s ih =>
      rw [boundsFrom, cutItems]
      split
      · next h =>
        obtain ⟨rfl, rfl⟩ := h
        have hnext := ih none (u ++ (v ++ [','])) []
        have hindex : utf8Length (u ++ (v ++ [','])) = utf8Length (u ++ v) + 1 := by
          rw [← List.append_assoc, utf8Length_append (u ++ v)]
          rfl
        have htext : u ++ (v ++ [',']) ++ ([] ++ s) = u ++ (v ++ ',' :: s) := by simp
        rw [List.append_nil, hindex, htext] at hnext
        rw [List.map_cons, slice?_append, hnext, List.modifyHead_cons, List.append_nil,
          List.map_cons]
        cases cutItems none s <;> rfl
      · have hnext := ih (quoteAfter quote c) u (v ++ [c])
        have hindex : utf8Length (u ++ (v ++ [c])) = utf8Length (u ++ v) + c.utf8Size := by
          rw [← List.append_assoc, utf8Length_append (u ++ v)]
          rfl
        have htext : u ++ (v ++ [c] ++ s) = u ++ (v ++ c :: s) := by simp
        have hpiece : (fun r => v ++ r) ∘ (fun r => c :: r) = fun r => v ++ [c] ++ r := by
          funext r
          simp
        rw [hindex, htext] at hnext
        rw [hnext, List.modifyHead_modifyHead, hpiece]

theorem map_slice?_itemBounds (s : Text) :
    s.itemBounds.map (fun b => slice? s b.1 b.2) = (cutItems none s).map some := by
  have h := map_slice?_boundsFrom none [] [] s
  rw [show (cutItems none s).modifyHead ([] ++ ·) = cutItems none s by
    cases cutItems none s <;> rfl] at h
  exact h

theorem le_of_mem_itemBounds {s : Text} {b : Nat × Nat} (h : b ∈ s.itemBounds) : b.1 ≤ b.2 := by
  have hmem : slice? s b.1 b.2 ∈ (cutItems none s).map some := by
    rw [← map_slice?_itemBounds]
    exact List.mem_map_of_mem h
  obtain ⟨t, _, ht⟩ := List.mem_map.mp hmem
  exact le_of_slice? ht.symm

/-! ## The slices of a line -/

/-- Every slice of the text that reading it calls for exists, from a byte to one that is not before
it, and the slice is what the text is read as.  The clauses of a statement are those of the pieces
of the slice, one by one, and those that are read from all of it. -/
structure SlicesFit (line : Text) : Prop where
  declaration : ∀ d, Declaration.parse? line = some d →
    Declaration.bodyStart line ≤ statementEnd line ∧
      ∃ body, slice? line (Declaration.bodyStart line) (statementEnd line) = some body ∧
        (body.splitOn ',').mapM Clause.parse? = some d.clauses ∧ Clause.readAll body = d.clauses
  assignment : ∀ cs, Assignment.parse? line = some cs →
    ∃ body, slice? line 0 (statementEnd line) = some body ∧
      (body.splitOn ',').mapM Clause.parse? = some cs ∧ Clause.readAll body = cs
  condition : Condition.start line ≤ Condition.stop line ∧
    ∃ s, slice? line (Condition.start line) (Condition.stop line) = some s ∧
      trim s = Condition.text line
  items : (∀ b ∈ line.itemBounds, b.1 ≤ b.2) ∧
    line.itemBounds.map (fun b => slice? line b.1 b.2) = (cutItems none line).map some

theorem slicesFit (line : Text) : SlicesFit line where
  declaration d hd := by
    obtain ⟨body, hbody, hcs⟩ := slice?_declaration hd
    exact ⟨le_of_slice? hbody, body, hbody, hcs⟩
  assignment _ hcs := slice?_assignment hcs
  condition := by
    obtain ⟨s, hs, htext⟩ := Condition.slice?_condition line
    exact ⟨le_of_slice? hs, s, hs, htext⟩
  items := ⟨fun _ hb => le_of_mem_itemBounds hb, map_slice?_itemBounds line⟩

-- The condition is cut at its last closing parenthesis, behind a character of two bytes.
example : Condition.start "if (é) ) \x7b".toList = 4 ∧
    Condition.stop "if (é) ) \x7b".toList = 7 := by
  decide

end Text
end SJava
