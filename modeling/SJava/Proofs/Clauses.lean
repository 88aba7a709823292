/-
Clauses one at a time.

The clauses of a statement are held against the grammar piece by piece, and are then read from all
of the text at once, which is cut at its commas together with the white space around them.  On a
text without white space at its ends this comes to the same pieces (`Clause.pieces_trim`).  So
grammar and reader can be taken together: a statement is read if each of its pieces is, and its
clauses are those of the pieces (`Clause.parseAll?_eq_mapM`).
-/
import SJava.Proofs.Grammar

namespace SJava

open Text

namespace Text

/-! ## White space -/

theorem trimEnd_trimEnd (s : Text) : trimEnd (trimEnd s) = trimEnd s := by
  obtain ⟨g, hg, hs⟩ := exists_trimEnd_append s
  have h := trimEnd_append (s := trimEnd s) hg
  rw [← hs] at h
  exact h.symm

theorem isBlank_eq_false_of_trimStart {s r : Text} {c : Char} (h : trimStart s = c :: r) :
    isBlank c = false := by
  have hmark : firstMark s = some c := by rw [← head?_trimStart, h]; rfl
  simpa [firstMark] using List.find?_some hmark

theorem trimStart_trimStart (s : Text) : trimStart (trimStart s) = trimStart s :=
  List.dropWhile_idempotent ..

/-- A text that begins with no white space has none at the start of its beginnings. -/
theorem trimStart_eq_of_prefix {p s : Text} (hs : trimStart s = s) (h : p <+: s) :
    trimStart p = p := by
  cases p with
  | nil => rfl
  | cons c p =>
      obtain ⟨r, rfl⟩ := h
      exact trimStart_cons (isBlank_eq_false_of_trimStart hs) p

/-- A text that ends in no white space has none at the end of its ends. -/
theorem trimEnd_eq_of_suffix {v s : Text} (hs : trimEnd s = s) (h : v <:+ s) : trimEnd v = v := by
  have hstart : trimStart s.reverse = s.reverse := List.reverse_eq_iff.mp hs
  have hpre : v.reverse <+: s.reverse := List.reverse_prefix.mpr h
  have hv : trimStart v.reverse = v.reverse := trimStart_eq_of_prefix hstart hpre
  exact List.reverse_eq_iff.mpr hv

theorem trim_trimStart (s : Text) : trim (trimStart s) = trim s := by
  rw [trim, trimStart_trimStart, trim]

theorem trim_indent {gap : Text} (hg : isBlankText gap) (raw : Text) :
    trim (gap ++ raw) = trim raw := by
  rw [trim, trim, trimStart_append hg]

theorem trim_append {gap : Text} (hg : isBlankText gap) (raw : Text) :
    trim (raw ++ gap) = trim raw := by
  have hgap : trimStart gap = [] := by
    rw [← List.append_nil gap, trimStart_append hg]
    rfl
  rw [trim, trim, trimStart, List.dropWhile_append]
  split
  · next h =>
    rw [show trimStart raw = [] from List.isEmpty_iff.mp h]
    exact congrArg trimEnd hgap
  · exact trimEnd_append hg

theorem trim_trimEnd (s : Text) : trim (trimEnd s) = trim s := by
  obtain ⟨g, hg, hs⟩ := exists_trimEnd_append s
  conv_rhs => rw [hs, trim_append hg]

theorem trimStart_trim (s : Text) : trimStart (trim s) = trim s := by
  have hpre : trim s <+: trimStart s := trimEnd_prefix (trimStart s)
  exact trimStart_eq_of_prefix (trimStart_trimStart s) hpre

theorem trimEnd_trim (s : Text) : trimEnd (trim s) = trim s := trimEnd_trimEnd (trimStart s)

theorem trim_trim (s : Text) : trim (trim s) = trim s := by
  rw [trim, trimStart_trim, trimEnd_trim]

theorem trimStart_eq_nil_iff {s : Text} : trimStart s = [] ↔ isBlankText s := by
  rw [trimStart, List.dropWhile_eq_nil_iff, isBlankText, List.all_eq_true]

theorem isBlankText_eq_false_of_trim {v : Text} (hne : v ≠ []) (htrim : trim v = v) :
    isBlankText v = false := by
  cases hv : isBlankText v with
  | false => rfl
  | true =>
      rw [trim, trimStart_eq_nil_iff.mpr hv] at htrim
      exact absurd htrim.symm hne

theorem not_mem_of_isBlankText {gap : Text} (h : isBlankText gap) {c : Char}
    (hc : isBlank c = false) : c ∉ gap := by
  intro hm
  rw [List.all_eq_true.mp h c hm] at hc
  exact absurd hc (by decide)

/-- The text after the white space decides whether there is a line, if there is any. -/
theorem isBlankThenLine_iff {s : Text} (hs : isBlankText s = false) :
    isBlankThenLine s ↔ '\n' ∉ trimStart s := by
  induction s with
  | nil => exact absurd hs (by decide)
  | cons c s ih =>
      have hline : (c :: s).all (· != '\n') ↔ '\n' ∉ c :: s := by
        simp only [List.all_eq_true, bne_iff_ne, ne_eq]
        exact ⟨fun h hm => h _ hm rfl, fun h d hd he => h (he ▸ hd)⟩
      rw [isBlankThenLine, Bool.or_eq_true, hline]
      cases hc : isBlank c with
      | true =>
          have htrim : trimStart (c :: s) = trimStart s := by simp [trimStart, hc]
          have hs' : isBlankText s = false := by simpa [isBlankText, hc] using hs
          rw [htrim, Bool.true_and, ih hs', or_iff_right_iff_imp]
          exact fun h hm => h (List.mem_cons_of_mem c ((trimStart_suffix s).subset hm))
      | false => rw [trimStart_cons hc, Bool.false_and, or_iff_left Bool.false_ne_true]

/-! ## Commas -/

theorem splitOn_comma_of_not_mem {s : Text} (h : ',' ∉ s) : s.splitOn ',' = [s] := by
  rw [List.splitOn_eq_splitOnP]
  refine List.splitOnP_eq_singleton fun a ha => ?_
  simpa using fun he : a = ',' => h (he ▸ ha)

/-- The first piece of a text ends at the first comma. -/
theorem splitOn_comma_append {u : Text} (h : ',' ∉ u) (r : Text) :
    (u ++ ',' :: r).splitOn ',' = u :: r.splitOn ',' := by
  have hfirst := splitOn_comma_of_not_mem h
  rw [List.splitOn_eq_splitOnP] at hfirst ⊢
  rw [List.splitOn_eq_splitOnP, List.splitOnP_append_cons u r (by simp), hfirst]
  rfl

/-- White space around a text belongs to its first and its last piece.  The recursion is on what
follows the first comma. -/
theorem map_trim_splitOn_pad {g g' : Text} (hg : isBlankText g) (hg' : isBlankText g') (s : Text) :
    ((g ++ (s ++ g')).splitOn ',').map trim = (s.splitOn ',').map trim := by
  have hcomma {b : Text} (hb : isBlankText b) : ',' ∉ b := not_mem_of_isBlankText hb (by decide)
  by_cases hs : ',' ∈ s
  · obtain ⟨u, r, rfl, hu⟩ := List.eq_append_cons_of_mem hs
    have hshorter : r.length < (u ++ ',' :: r).length := by
      simp only [List.length_append, List.length_cons]
      omega
    have hfirst : ',' ∉ g ++ u := by simp [hcomma hg, hu]
    have hrest := map_trim_splitOn_pad (g := []) rfl hg' r
    rw [List.append_assoc, List.cons_append, ← List.append_assoc, splitOn_comma_append hfirst,
      splitOn_comma_append hu, List.map_cons, List.map_cons, trim_indent hg]
    rw [List.nil_append] at hrest
    rw [hrest]
  · have hpad : ',' ∉ g ++ (s ++ g') := by simp [hcomma hg, hcomma hg', hs]
    rw [splitOn_comma_of_not_mem hpad, splitOn_comma_of_not_mem hs, List.map_singleton,
      List.map_singleton, trim_indent hg, trim_append hg']
termination_by s.length

theorem map_trim_splitOn_trim (s : Text) :
    ((trim s).splitOn ',').map trim = (s.splitOn ',').map trim := by
  obtain ⟨g, hg, hstart⟩ := exists_append_trimStart s
  obtain ⟨g', hg', hend⟩ := exists_trimEnd_append (trimStart s)
  have hs : s = g ++ (trim s ++ g') := by
    rw [trim, ← hend]
    exact hstart
  conv_rhs => rw [hs, map_trim_splitOn_pad hg hg']

theorem prefix_intercalate (p : Text) (ps : List Text) : p <+: [','].intercalate (p :: ps) := by
  cases ps with
  | nil => simp
  | cons q ps =>
      rw [List.intercalate_cons_cons, List.append_assoc]
      exact List.prefix_append p _

theorem suffix_intercalate {q : Text} {ps : List Text} (h : ps.getLast? = some q) :
    q <:+ [','].intercalate ps := by
  induction ps with
  | nil => simp at h
  | cons p ps ih =>
      cases ps with
      | nil =>
          obtain rfl : p = q := by simpa using h
          simp
      | cons p' ps =>
          rw [List.getLast?_cons_cons] at h
          rw [List.intercalate_cons_cons]
          exact (ih h).trans (List.suffix_append _ _)

end Text

/-! ## Pieces -/

namespace Clause

theorem map_trim_closeUp (p : Text) (ps : List Text) :
    (closeUp p ps).map trim = (p :: ps).map trim := by
  induction ps generalizing p with
  | nil => rfl
  | cons q ps ih =>
      rw [closeUp, List.map_cons, ih, trim_trimEnd, List.map_cons, trim_trimStart, List.map_cons,
        List.map_cons]

/-- No white space is left around the pieces if there is none before the first and after the
last. -/
theorem trim_of_mem_closeUp {p : Text} {ps : List Text} (hp : trimStart p = p)
    (hlast : ∀ q, (p :: ps).getLast? = some q → trimEnd q = q) :
    ∀ t ∈ closeUp p ps, trim t = t := by
  induction ps generalizing p with
  | nil =>
      rw [closeUp, List.forall_mem_singleton, trim, hp]
      exact hlast p rfl
  | cons q ps ih =>
      refine List.forall_mem_cons.mpr ⟨?_, ih (trimStart_trimStart q) fun t ht => ?_⟩
      · rw [trim_trimEnd, trim, hp]
      · rw [List.getLast?_cons_cons] at hlast
        cases ps with
        | nil =>
            obtain rfl : trimStart q = t := by simpa using ht
            exact trimEnd_eq_of_suffix (hlast q rfl) (trimStart_suffix q)
        | cons r ps =>
            rw [List.getLast?_cons_cons] at ht hlast
            exact hlast t ht

/-- Without white space at the ends of the text, none is left around any piece. -/
theorem pieces_trim (s : Text) : pieces (trim s) = (s.splitOn ',').map trim := by
  obtain ⟨p, ps, hps⟩ := List.exists_cons_of_ne_nil (List.splitOn_ne_nil ',' (trim s))
  have htext : [','].intercalate (p :: ps) = trim s := by
    rw [← hps, List.intercalate_splitOn]
  have hfirst : trimStart p = p := by
    have hpre : p <+: trim s := htext ▸ prefix_intercalate p ps
    exact trimStart_eq_of_prefix (trimStart_trim s) hpre
  have hlast (q : Text) (hq : (p :: ps).getLast? = some q) : trimEnd q = q :=
    trimEnd_eq_of_suffix (trimEnd_trim s) (htext ▸ suffix_intercalate hq)
  have htrim : (closeUp p ps).map trim = closeUp p ps :=
    (List.map_congr_left (trim_of_mem_closeUp hfirst hlast)).trans (List.map_id _)
  rw [pieces, hps]
  show closeUp p ps = _
  rw [← htrim, map_trim_closeUp, ← hps, map_trim_splitOn_trim]

/-! ## Clauses -/

/-- Reads one clause of a statement, if it is one. -/
def parse? (s : Text) : Option Clause :=
  let s := trim s
  if Name.isVariable (s.takeWhile isWord) then
    match trimStart (s.dropWhile isWord) with
    | [] => some ⟨s, none⟩
    | c :: rest =>
      let value := trimStart rest
      if c != '=' || value.isEmpty then none
      else if value.contains '\n' then some ⟨s, none⟩
      else some ⟨s.takeWhile isWord, some value⟩
  else none

/-- A clause is read if it follows the grammar. -/
theorem parse?_eq (s : Text) :
    parse? s = if isClause s then some (read (trim s)) else none := by
  by_cases hname : Name.isVariable ((trim s).takeWhile isWord)
  · simp only [parse?, isClause, read, initialization?, hname, if_true, Bool.true_and]
    cases hrest : trimStart ((trim s).dropWhile isWord) with
    | nil => simp [after?, trim_trim]
    | cons c rest =>
        by_cases hc : c = '='
        · subst hc
          have hequals : '=' :: rest <:+ trim s :=
            hrest ▸ (trimStart_suffix _).trans (List.dropWhile_suffix _)
          -- The value ends where the clause does, so the white space after it is gone already.
          have hvalue : trim rest = trimStart rest :=
            trimEnd_eq_of_suffix (trimEnd_trim s)
              ((trimStart_suffix rest).trans ((List.suffix_cons _ rest).trans hequals))
          cases hblank : isBlankText rest with
          | true => simp [hblank, trimStart_eq_nil_iff.mpr hblank]
          | false =>
              have hne : trimStart rest ≠ [] := fun h => by
                simp [trimStart_eq_nil_iff.mp h] at hblank
              have hline := isBlankThenLine_iff hblank
              by_cases hfeed : '\n' ∈ trimStart rest
              · simp [after?, hblank, hne, hfeed, hline, trim_trim]
              · simp [after?, hblank, hne, hfeed, hline, hvalue]
        · simp [hc]
  · simp [parse?, isClause, hname]

theorem parse?_trim (s : Text) : parse? (trim s) = parse? s := by
  rw [parse?, parse?, trim_trim]

/-- What follows the grammar throughout is read throughout. -/
theorem mapM_parse?_eq (ps : List Text) :
    ps.mapM parse? = if ps.all isClause then some (ps.map fun p => read (trim p)) else none := by
  induction ps with
  | nil => rfl
  | cons p ps ih =>
      rw [List.mapM_cons, ih, parse?_eq]
      cases hp : isClause p <;> cases hps : ps.all isClause <;> simp [hp, hps]

theorem readAll_trim (s : Text) :
    readAll (trim s) = (s.splitOn ',').map fun p => read (trim p) := by
  rw [readAll, pieces_trim, List.map_map]
  rfl

-- What is no clause is read too, and all of it is a name.
example : readAll "a = 5 ,b,\t1 = 2".toList =
    [⟨"a".toList, some "5".toList⟩, ⟨"b".toList, none⟩, ⟨"1 = 2".toList, none⟩] := by
  decide +kernel

/-- A statement is read if each of its pieces is. -/
theorem parseAll?_eq_mapM (s : Text) :
    parseAll? s = (before? ';' s).bind fun body =>
      if body.contains ';' then none else (body.splitOn ',').mapM parse? := by
  simp only [parseAll?, mapM_parse?_eq, readAll_trim]
  congr 1
  funext body
  cases body.contains ';' <;> cases (body.splitOn ',').all isClause <;> rfl

/-- The reader that takes any text finds the clauses of the pieces. -/
theorem readAll_eq_of_mapM {s : Text} {cs : List Clause}
    (h : (s.splitOn ',').mapM parse? = some cs) : readAll (trim s) = cs := by
  rw [mapM_parse?_eq, Option.ite_none_right_eq_some] at h
  rw [readAll_trim]
  exact Option.some.inj h.2

theorem parseAll?_eq_some {s : Text} {cs : List Clause} (h : parseAll? s = some cs) :
    ∃ body, s = body ++ [';'] ∧ ';' ∉ body ∧ (body.splitOn ',').mapM parse? = some cs := by
  rw [parseAll?_eq_mapM] at h
  obtain ⟨body, hbody, hcs⟩ := Option.bind_eq_some_iff.mp h
  rw [Option.ite_none_left_eq_some] at hcs
  exact ⟨body, before?_eq_some_iff.mp hbody, by simpa using hcs.1, hcs.2⟩

/-- The clauses of a statement without the white space at the ends of its text. -/
theorem mapM_parse?_trim (s : Text) :
    ((trim s).splitOn ',').mapM parse? = (s.splitOn ',').mapM parse? := by
  have htrim (ps : List Text) : (ps.map trim).mapM parse? = ps.mapM parse? := by
    rw [List.mapM_map]
    exact congrArg (ps.mapM ·) (funext parse?_trim)
  rw [← htrim ((trim s).splitOn ','), map_trim_splitOn_trim, htrim]

end Clause
end SJava
