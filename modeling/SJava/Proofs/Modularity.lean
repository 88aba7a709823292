/-
Methods are independent of each other.

A program is accepted if it is accepted with every body but one replaced by a return, for
each method in turn (`verify_iff_isolated`): nothing leaks from one body into another.  And
the order of the methods does not matter, nor where they stand among the global lines
(`verify_reordered`): they are known before the first body is inspected, and a body depends
on the methods only by what they are called and how.
-/
import SJava.Proofs.Segments
import SJava.Proofs.Weakening

namespace SJava

open Text Outcome

/-! ## One body at a time -/

/-- A body that does nothing but end. -/
def Body.returning : Body := ⟨["return;".toList], by decide +kernel⟩

namespace Segment

def stub : Segment → Segment
  | method header _ close => method header .returning close
  | s => s

/-- The segments, of which only the one at position `i` keeps its body. -/
def isolate (i : Nat) (segments : List Segment) : List Segment :=
  segments.mapIdx fun j s => if j = i then s else s.stub

theorem skeleton_stub (s : Segment) : s.stub.skeleton = s.skeleton := by cases s <;> rfl

theorem stub_of_not_isMethod {s : Segment} (h : s.isMethod = false) : s.stub = s := by
  cases s with
  | remark _ _ | declaration _ | assignment _ => rfl
  | method _ _ _ => simp [isMethod] at h

theorem skeleton_isolate (i : Nat) (segments : List Segment) :
    (isolate i segments).flatMap skeleton = segments.flatMap skeleton := by
  rw [List.flatMap_def, List.flatMap_def]
  congr 1
  refine List.ext_getElem? fun j => ?_
  simp only [isolate, List.getElem?_map, List.getElem?_mapIdx]
  cases segments[j]? with
  | none => rfl
  | some s =>
      by_cases hj : j = i
      · simp [hj]
      · simp [hj, skeleton_stub]

theorem mem_isolate_iff {i : Nat} {segments : List Segment} {t : Segment} :
    t ∈ isolate i segments ↔
      ∃ j s, segments[j]? = some s ∧ t = if j = i then s else s.stub := by
  rw [List.mem_iff_getElem?]
  simp only [isolate, List.getElem?_mapIdx, Option.map_eq_some_iff]
  constructor
  · rintro ⟨j, s, hs, rfl⟩
    exact ⟨j, s, hs, rfl⟩
  · rintro ⟨j, s, hs, rfl⟩
    exact ⟨j, s, hs, rfl⟩

open Progress in
/-- A method whose body is accepted can be entered, and then a return is enough. -/
theorem Legal.stub {e : Env} {s : Segment} (h : s.Legal e) : s.stub.Legal e := by
  cases s with
  | remark line hl => exact h
  | declaration line => exact h
  | assignment line => exact h
  | method header body close =>
      have hrule : Rule.standard (Category.of header.line.text) = some .enterMethod := by
        rw [header.line.of_text]
        rfl
      rw [Legal, significant_method, result?_each_cons, result?_inspect_of_rule hrule] at h
      cases ht : (e.headerLine .inspection header.line.text).result? with
      | none => simp [Rule.apply, ht] at h
      | some t =>
          obtain ⟨_, s, _, _, _, _, rfl⟩ := Env.result?_headerLine_eq_some ht
          have hbody : significant Body.returning.lines = ["return;".toList] := by decide +kernel
          have hret : Category.of "return;".toList = .returnStatement := by decide +kernel
          have hok : (Env.checkReturn { e with locals := [Frame.ofParameters s.parameters] }
              "return;".toList).isOk = true :=
            Env.checkReturn_isOk (List.cons_ne_nil _ _) (by decide +kernel)
          rw [Legal, Segment.stub, significant_method, result?_each_cons,
            result?_inspect_of_rule hrule, Rule.apply, ht, hbody]
          simp only [Option.map_some, Option.bind_some, List.singleton_append]
          rw [result?_each_cons, result?_inspect_of_rule (by rw [hret]; rfl), Rule.apply,
            result?_require, if_pos hok]
          simp only [result?_ok, Option.map_some, Option.bind_some, hret]
          rw [result?_each_singleton, result?_inspect_of_rule (by rw [of_closing]; rfl),
            Rule.apply, Env.result?_closeBlock_of_eq rfl]
          rfl

end Segment

open Segment

/-- A program with a method is accepted if and only if, for each of its methods, it is
accepted with the bodies of all other methods replaced by a return. -/
theorem verify_iff_isolated {segments : List Segment} (hm : ∃ s ∈ segments, s.isMethod) :
    verify (linesOf segments) = none ↔
      ∀ i s, segments[i]? = some s → s.isMethod → verify (linesOf (isolate i segments)) = none := by
  have hiff (i : Nat) := verify_linesOf_eq_none_iff (isolate i segments)
  simp only [skeleton_isolate] at hiff
  constructor
  · intro h i s _ _
    obtain ⟨e, he, hlegal⟩ := (verify_linesOf_eq_none_iff segments).mp h
    refine (hiff i).mpr ⟨e, he, fun t ht => ?_⟩
    obtain ⟨j, u, hu, rfl⟩ := mem_isolate_iff.mp ht
    have hulegal := hlegal u (List.mem_of_getElem? hu)
    split
    · exact hulegal
    · exact hulegal.stub
  · intro h
    obtain ⟨s₀, hs₀, hm₀⟩ := hm
    obtain ⟨i₀, hi₀⟩ := List.mem_iff_getElem?.mp hs₀
    obtain ⟨e, he, hlegal₀⟩ := (hiff i₀).mp (h i₀ s₀ hi₀ hm₀)
    refine (verify_linesOf_eq_none_iff segments).mpr ⟨e, he, fun s hs => ?_⟩
    obtain ⟨i, hi⟩ := List.mem_iff_getElem?.mp hs
    cases hsm : s.isMethod with
    | true =>
        obtain ⟨e', he', hlegal⟩ := (hiff i).mp (h i s hi hsm)
        obtain rfl : e' = e := Option.some.inj (he'.symm.trans he)
        exact hlegal s (mem_isolate_iff.mpr ⟨i, s, hi, by rw [if_pos rfl]⟩)
    | false =>
        refine hlegal₀ s (mem_isolate_iff.mpr ⟨i, s, hi, ?_⟩)
        rw [stub_of_not_isMethod hsm, ite_self]

/-- A method that gives a global variable its value and calls a method with it. -/
def sampleCaller : Segment :=
  .method ⟨"void f() \x7b".toList, by decide +kernel⟩
    ⟨["  if (h) \x7b".toList, "    g = 1;".toList, "  \x7d".toList, "".toList,
      "  k(g);".toList, "  return;".toList], by decide +kernel⟩
    ⟨"\x7d".toList, by decide +kernel⟩

def sampleCallee : Segment :=
  .method ⟨"void k(int a) \x7b".toList, by decide +kernel⟩
    ⟨["  double g = a;".toList, "  f();".toList, "  return;".toList], by decide +kernel⟩
    ⟨"\x7d ".toList, by decide +kernel⟩

/-- The methods between global lines, with a remark after them. -/
def sampleSegments : List Segment :=
  [.declaration ⟨"int g;".toList, by decide +kernel⟩, sampleCaller,
    .declaration ⟨"boolean h, i = true;".toList, by decide +kernel⟩, sampleCallee,
    .assignment ⟨" h = i;".toList, by decide +kernel⟩,
    .remark "// done".toList (by decide +kernel)]

theorem verify_sampleSegments : verify (linesOf sampleSegments) = none := by decide +kernel

theorem sampleSegments_isolated :
    (∃ s ∈ sampleSegments, s.isMethod) ∧ verify (linesOf sampleSegments) = none ∧
      ∀ i s, sampleSegments[i]? = some s → s.isMethod →
        verify (linesOf (isolate i sampleSegments)) = none :=
  have hm : ∃ s ∈ sampleSegments, s.isMethod := ⟨sampleCallee, by decide +kernel, rfl⟩
  ⟨hm, verify_sampleSegments, (verify_iff_isolated hm).mp verify_sampleSegments⟩

/-! ## The order of methods -/

namespace Segment

def isStatement : Segment → Bool
  | declaration _ | assignment _ => true
  | _ => false

theorem Legal.mono {e e' : Env} (h : e.Below e') {s : Segment} (hs : s.Legal e) :
    s.Legal e' := by
  obtain ⟨q, hq⟩ := Option.isSome_iff_exists.mp hs
  obtain ⟨q', hq', _⟩ := (Progress.Below.of_env h).each_inspect (significant s.lines) q hq
  exact Option.isSome_iff_exists.mpr ⟨q', hq'⟩

/-- The global lines of a program are those of its segments that are global lines. -/
theorem filter_skeleton (segments : List Segment) :
    (segments.flatMap skeleton).filter (fun item => item.header?.isNone) =
      (segments.filter isStatement).flatMap skeleton := by
  induction segments with
  | nil => rfl
  | cons s segments ih =>
      rw [List.flatMap_cons, List.filter_append, ih]
      cases s <;> rfl

end Segment

theorem exists_mapM_of_perm {α β : Type} {f : α → Option β} {as as' : List α} {bs : List β}
    (hp : as'.Perm as) (h : as.mapM f = some bs) : ∃ bs', as'.mapM f = some bs' ∧ bs'.Perm bs := by
  induction hp generalizing bs with
  | nil => exact ⟨bs, h, .refl _⟩
  | cons a _ ih =>
      rw [List.mapM_cons] at h
      obtain ⟨b, hb, h⟩ := Option.bind_eq_some_iff.mp h
      obtain ⟨cs, hcs, h⟩ := Option.bind_eq_some_iff.mp h
      obtain rfl : b :: cs = bs := Option.some.inj h
      obtain ⟨cs', hcs', hperm⟩ := ih hcs
      exact ⟨b :: cs', by rw [List.mapM_cons, hb, hcs']; rfl, hperm.cons b⟩
  | swap a a' as =>
      simp only [List.mapM_cons] at h
      obtain ⟨b, hb, h⟩ := Option.bind_eq_some_iff.mp h
      obtain ⟨_, htail, h⟩ := Option.bind_eq_some_iff.mp h
      obtain ⟨b', hb', htail⟩ := Option.bind_eq_some_iff.mp htail
      obtain ⟨cs, hcs, htail⟩ := Option.bind_eq_some_iff.mp htail
      obtain rfl := Option.some.inj htail
      obtain rfl := Option.some.inj h
      exact ⟨b' :: b :: cs, by simp only [List.mapM_cons, hb, hb', hcs]; rfl, .swap b b' cs⟩
  | trans _ _ ih ih' =>
      obtain ⟨cs, hcs, hperm⟩ := ih' h
      obtain ⟨bs', hbs', hperm'⟩ := ih hcs
      exact ⟨bs', hbs', hperm'.trans hperm⟩

namespace Program

theorem globals?_eq_of_filter {p p' : Program}
    (h : p'.items.filter (fun item => item.header?.isNone) =
      p.items.filter fun item => item.header?.isNone) : p'.globals? = p.globals? := by
  have hskip (q : Program) : each Item.declareIn Env.empty q.items =
      each Item.declareIn Env.empty (q.items.filter fun item => item.header?.isNone) := by
    refine (each_filter (fun e item hitem => ?_) Env.empty q.items).symm
    cases item with
    | declaration line | assignment line => simp [Item.header?] at hitem
    | method header body => rfl
  rw [globals?, globals?, hskip p, hskip p', h]

/-- The environment of a program whose items stand in another order.  It knows the methods
in another order as well, which shows in nothing but the order. -/
theorem exists_environment?_of_perm (p p' : Program) (hp : p'.items.Perm p.items)
    (hg : p'.items.filter (fun item => item.header?.isNone) =
      p.items.filter fun item => item.header?.isNone)
    {e : Env} (h : p.environment? = some e) : ∃ e', p'.environment? = some e' ∧ e.Below e' := by
  have htop := (known_of_environment? h).1
  obtain ⟨globals, hglobals, h⟩ := Option.bind_eq_some_iff.mp h
  obtain ⟨ss, hss, h⟩ := Option.bind_eq_some_iff.mp h
  obtain ⟨ss', hss', hperm⟩ := exists_mapM_of_perm (hp.filterMap Item.header?) hss
  split at h
  · next hn =>
    obtain rfl := Option.some.inj h
    have hn' : (ss'.map (·.name)).Nodup := (hperm.map _).nodup_iff.mpr hn
    refine ⟨⟨ss'.reverse, globals, []⟩, ?_, ?_⟩
    · rw [environment?, globals?_eq_of_filter hg, hglobals, Option.bind_some, signatures?, hss',
        Option.bind_some, if_pos hn']
    · refine .of_locals_eq_nil (fun m s hs => ?_) (.refl _) rfl ⟨rfl, htop.allGlobal⟩
      have hss : s ∈ ss := List.mem_reverse.mp (List.mem_of_find?_eq_some hs)
      have hmem : s ∈ ss'.reverse := List.mem_reverse.mpr (hperm.mem_iff.mpr hss)
      obtain rfl : s.name = m := by simpa using List.find?_some hs
      refine Env.signature?_eq_some_of_mem (e := ⟨ss'.reverse, globals, []⟩) ?_ hmem
      rw [List.map_reverse, List.nodup_reverse]
      exact hn'
  · simp at h

end Program

/-- An accepted program stays accepted when its segments are put in another order, as long
as the global lines stay in theirs. -/
theorem verify_reordered {segments segments' : List Segment} (hperm : segments'.Perm segments)
    (hglobal : segments'.filter isStatement = segments.filter isStatement)
    (h : verify (linesOf segments) = none) : verify (linesOf segments') = none := by
  obtain ⟨e, he, hlegal⟩ := (verify_linesOf_eq_none_iff segments).mp h
  have hfilter : (segments'.flatMap skeleton).filter (fun item => item.header?.isNone) =
      (segments.flatMap skeleton).filter fun item => item.header?.isNone := by
    rw [filter_skeleton, filter_skeleton, hglobal]
  obtain ⟨e', he', hbelow⟩ := Program.exists_environment?_of_perm ⟨segments.flatMap skeleton⟩
    ⟨segments'.flatMap skeleton⟩ (hperm.flatMap_right skeleton) hfilter he
  refine (verify_linesOf_eq_none_iff segments').mpr ⟨e', he', fun s hs => ?_⟩
  exact (hlegal s (hperm.mem_iff.mp hs)).mono hbelow

/-- The same segments, with each method before all that it relies on. -/
def sampleReordered : List Segment :=
  [.remark "// done".toList (by decide +kernel), sampleCallee, sampleCaller,
    .declaration ⟨"int g;".toList, by decide +kernel⟩,
    .declaration ⟨"boolean h, i = true;".toList, by decide +kernel⟩,
    .assignment ⟨" h = i;".toList, by decide +kernel⟩]

theorem verify_sampleReordered :
    sampleReordered.Perm sampleSegments ∧
      sampleReordered.filter isStatement = sampleSegments.filter isStatement ∧
      verify (linesOf sampleSegments) = none ∧ verify (linesOf sampleReordered) = none :=
  have hperm : sampleReordered.Perm sampleSegments := by decide +kernel
  have hglobal : sampleReordered.filter isStatement = sampleSegments.filter isStatement := rfl
  ⟨hperm, hglobal, verify_sampleSegments, verify_reordered hperm hglobal verify_sampleSegments⟩

end SJava
