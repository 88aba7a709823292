/-
A statement with several clauses means what its clauses mean as statements of their own.

The clauses can be written on lines of their own, one on each, with any white space
(`SplitInto`).  Going over these lines then gives what the statement gives: the same
environment, also if a clause in the middle is at fault, and the same fault.  What a clause does
depends on its own line only, and a declaration does not leave the block that it stands in, so
each line starts where the clause of the statement does.
-/
import Mathlib.Data.List.Forall2
import Mathlib.Data.List.Nodup
import SJava.Proofs.Printing

namespace SJava

/-- Two runs agree if their steps do wherever the first run comes. -/
theorem Outcome.each_eq_of_forall₂ {ε σ α β : Type} {P : σ → Prop} {step : σ → α → Outcome ε σ}
    {step' : σ → β → Outcome ε σ} {as : List α} {bs : List β}
    (h : List.Forall₂ (fun a b => ∀ s, P s → step s a = step' s b) as bs)
    (hP : ∀ s a, P s → P (step s a).state) {s : σ} (hs : P s) :
    each step s as = each step' s bs := by
  induction h generalizing s with
  | nil => rfl
  | @cons a b as bs hab _ ih =>
      rw [each, each, ← hab s hs, andThen, andThen]
      split
      · exact ih (hP s a hs)
      · rfl

theorem Clause.distinct_singleton (c : Clause) : Distinct [c] := List.nodup_singleton c.name

theorem Clause.FirstRepeat.not_distinct {cs : List Clause} {x : Text} (h : FirstRepeat cs x) :
    ¬ Distinct cs := by
  obtain ⟨before, c, after, rfl, hc, -, b, hb, hx⟩ := h
  intro hd
  rw [Distinct, List.map_append, List.nodup_append] at hd
  exact hd.2.2 b.name (List.mem_map_of_mem hb) c.name (by simp) (hx.trans hc.symm)

/-- The lists have the same images, item by item. -/
theorem forall₂_of_map_eq_map {α β γ : Type} {f : α → γ} {g : β → γ} {as : List α}
    {bs : List β} (h : as.map f = bs.map g) : List.Forall₂ (fun a b => f a = g b) as bs := by
  have heq : List.Forall₂ Eq (as.map f) (bs.map g) := by
    rw [h]
    exact List.forall₂_refl _
  simpa only [List.forall₂_map_left_iff, List.forall₂_map_right_iff] using heq

/-! ## Splitting a statement -/

namespace Clause.Series

/-- The lines assign what the series assigns, one clause on each. -/
def SplitInto (s : Series) (lines : List Series) : Prop :=
  s.clauses.map ([·]) = lines.map (·.clauses)

/-- Each clause with the white space it has. -/
def split : Series → List Series
  | last c => [last c]
  | more c _ rest => last c :: rest.split

theorem splitInto_split (s : Series) : s.SplitInto s.split := by
  induction s with
  | last c => rfl
  | more c gap rest ih => exact congrArg ([c.clause] :: ·) ih

end Clause.Series

namespace Declaration.Spaced

/-- The lines declare what the declaration declares, one clause on each. -/
def SplitInto (d : Spaced) (lines : List Spaced) : Prop :=
  d.series.clauses.map (fun c => ⟨d.declaration.declarator, [c]⟩) = lines.map (·.declaration)

theorem splitInto_split (d : Spaced) :
    d.SplitInto (d.series.split.map fun s => { d with series := s }) := by
  have h := congrArg (List.map (Declaration.mk d.declaration.declarator)) d.series.splitInto_split
  rw [List.map_map, List.map_map] at h
  rw [SplitInto, List.map_map]
  exact h

end Declaration.Spaced

namespace Env

/-! ## Declarations -/

/-- A declaration stays in the block that it stands in. -/
theorem isGlobal_declareClause (d : Declarator) (e : Env) (c : Clause) :
    (declareClause d e c).state.isGlobal = e.isGlobal := by
  refine state_declareClause (P := fun t => t.isGlobal = e.isGlobal) rfl ?_ d c
  intro x ty isFinal i
  rw [isGlobal, isGlobal, depth_declare]

theorem declareLine_of_distinct {e : Env} {pass : Pass} (h : e.isGlobal = false ∨ pass = .survey)
    {line : Text} {d : Declaration} (hd : Declaration.parse? line = some d)
    (hdistinct : Clause.Distinct d.clauses) :
    e.declareLine pass line = Outcome.each (declareClause d.declarator) e d.clauses := by
  rcases declareLine_of_parse? h hd with ⟨-, hline⟩ | ⟨x, hx, -⟩
  · exact hline
  · exact absurd hdistinct hx.not_distinct

/-- A declaration with one clause. -/
theorem declareLine_text_single {e : Env} {pass : Pass} (h : e.isGlobal = false ∨ pass = .survey)
    {d : Declaration.Spaced} {declarator : Declarator} {c : Clause}
    (hd : ⟨declarator, [c]⟩ = d.declaration) :
    declareClause declarator e c = e.declareLine pass d.text := by
  have hparse := d.parse?_text
  rw [← hd] at hparse
  rw [declareLine_of_distinct h hparse (Clause.distinct_singleton c), Outcome.each_singleton]

theorem declareLine_eq_each {e : Env} {pass : Pass} (h : e.isGlobal = false ∨ pass = .survey)
    {d : Declaration.Spaced} (hdistinct : Clause.Distinct d.series.clauses)
    {lines : List Declaration.Spaced} (hlines : d.SplitInto lines) :
    e.declareLine pass d.text = Outcome.each (declareLine pass) e (lines.map (·.text)) := by
  rw [declareLine_of_distinct h d.parse?_text hdistinct]
  refine Outcome.each_eq_of_forall₂ (P := fun t => t.isGlobal = false ∨ pass = .survey) ?_ ?_ h
  · rw [List.forall₂_map_right_iff]
    exact (forall₂_of_map_eq_map hlines).imp fun c l hl t ht => declareLine_text_single ht hl
  · intro t c ht
    rwa [isGlobal_declareClause]

/-! ## Assignments -/

theorem assignLine_of_distinct (e : Env) {line : Text} {cs : List Clause}
    (h : Assignment.parse? line = some cs) (hdistinct : Clause.Distinct cs) :
    e.assignLine line = Outcome.each (assignClause line) e cs := by
  rcases assignLine_of_parse? h with ⟨-, hline⟩ | ⟨x, hx, -⟩
  · exact hline
  · exact absurd hdistinct hx.not_distinct

/-- The line of a clause that has a value does not matter to it. -/
theorem assignClause_congr (line line' : Text) (e : Env) {c : Clause} (hc : c.value.isSome) :
    assignClause line e c = assignClause line' e c := by
  obtain ⟨v, hv⟩ := Option.isSome_iff_exists.mp hc
  rw [assignClause, assignClause, hv]

/-- An assignment with one clause. -/
theorem assignLine_text_single (line : Text) (e : Env) {s : Clause.Series} {c : Clause}
    (hs : [c] = s.clauses) (hc : c.value.isSome) : assignClause line e c = e.assignLine s.text := by
  have hvalues : ∀ a ∈ s.clauses, a.value.isSome := by
    rw [← hs]
    simpa using hc
  have hparse := Assignment.parse?_text_of_values hvalues
  rw [← hs] at hparse
  rw [e.assignLine_of_distinct hparse (Clause.distinct_singleton c), Outcome.each_singleton]
  exact assignClause_congr line s.text e hc

theorem assignLine_eq_each (e : Env) {s : Clause.Series}
    (hvalues : ∀ c ∈ s.clauses, c.value.isSome) (hdistinct : Clause.Distinct s.clauses)
    {lines : List Clause.Series} (hlines : s.SplitInto lines) :
    e.assignLine s.text = Outcome.each assignLine e (lines.map (·.text)) := by
  rw [e.assignLine_of_distinct (Assignment.parse?_text_of_values hvalues) hdistinct]
  refine Outcome.each_eq_of_forall₂ (P := fun _ => True) ?_ (fun _ _ _ => trivial) trivial
  rw [List.forall₂_map_right_iff]
  have hboth := (List.forall₂_and_left _ _).mpr ⟨hvalues, forall₂_of_map_eq_map hlines⟩
  exact hboth.imp fun c l hl t _ => assignLine_text_single s.text t hl.2 hl.1

/-! ## Main result -/

/-- A declaration outside the global block, or in the survey, and an assignment anywhere: if
their clauses have distinct names, they can be split into lines with one clause each, and
whichever way this is done, going over the lines up to the first fault gives the outcome of the
statement. -/
theorem statement_is_sequence_of_clauses (e : Env) :
    (∀ (pass : Pass) (d : Declaration.Spaced), e.isGlobal = false ∨ pass = .survey →
      Clause.Distinct d.series.clauses →
        (∃ lines, d.SplitInto lines) ∧ ∀ lines, d.SplitInto lines →
          e.declareLine pass d.text = Outcome.each (declareLine pass) e (lines.map (·.text))) ∧
    ∀ s : Clause.Series, (∀ c ∈ s.clauses, c.value.isSome) → Clause.Distinct s.clauses →
      (∃ lines, s.SplitInto lines) ∧ ∀ lines, s.SplitInto lines →
        e.assignLine s.text = Outcome.each assignLine e (lines.map (·.text)) :=
  ⟨fun _ d h hd => ⟨⟨_, d.splitInto_split⟩, fun _ => declareLine_eq_each h hd⟩,
    fun s hs hd => ⟨⟨_, s.splitInto_split⟩, fun _ => e.assignLine_eq_each hs hd⟩⟩

/-- The line `int x = 1 ,y=z;`, where `z` is not known. -/
def sampleDeclaration : Declaration.Spaced :=
  ⟨none, .int, List.mem_cons_self, ⟨.space, List.cons_ne_nil _ _⟩,
    .more (.single 'x' '1' (by decide) (by decide) .space) .empty
      (.last (.single 'y' 'z' (by decide) (by decide) .empty))⟩

theorem sampleDeclaration_fails_midway :
    sampleDeclaration.text = "int x = 1 ,y=z;".toList ∧
      empty.declareLine .survey sampleDeclaration.text =
        Outcome.each (declareLine .survey) empty ["int x = 1 ;".toList, "int y=z;".toList] ∧
      empty.declareLine .survey sampleDeclaration.text =
        .fail (empty.declare "x".toList .int false true).state
          (.variableNotDeclared "z".toList) := by
  have hdistinct : Clause.Distinct sampleDeclaration.series.clauses := by
    unfold Clause.Distinct
    decide
  have htexts : (sampleDeclaration.series.split.map fun s =>
      { sampleDeclaration with series := s }).map Declaration.Spaced.text =
        ["int x = 1 ;".toList, "int y=z;".toList] := rfl
  obtain ⟨-, hlines⟩ := (statement_is_sequence_of_clauses empty).1 .survey sampleDeclaration
    (Or.inr rfl) hdistinct
  rw [hlines _ sampleDeclaration.splitInto_split, htexts]
  exact ⟨rfl, rfl, by decide +kernel⟩

end Env
end SJava
