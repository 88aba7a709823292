/-
The types of declarations.

A declaration names its type by a word, and the type is looked up once the grammar of declarations
has admitted the line.  The lookup can fail, as it does for some parameters, but it finds every word
that the grammar lets through (`Declaration.parse_eq`).  So a declaration can be read with its type
at once (`Declarator.parse?`), and what is wrong with a line is its grammar or one of its clauses
(`Env.declareLine_eq`).
-/
import SJava.Rules.Statement

namespace SJava

open Text

namespace Declarator

/-- A type at the start of a text, and what follows it. -/
def type? (s : Text) : Option (Ty × Text) :=
  Ty.declarable.findSome? fun t => (after? t.keyword s).map fun rest => (t, rest)

/-- An optional `final` and a type at the start of a text, and what follows them. -/
def parse? (s : Text) : Option (Declarator × Text) :=
  match (after? "final".toList s).bind afterGap? with
  | some s => (type? s).map fun (t, rest) => (⟨true, t⟩, rest)
  | none => (type? s).map fun (t, rest) => (⟨false, t⟩, rest)

/-- The grammar has the words of the types that can be declared. -/
theorem typeWords_eq : typeWords = Ty.declarable.map Ty.keyword := rfl

theorem typeWord?_eq (s : Text) :
    typeWord? s = (type? s).map fun (t, rest) => (t.keyword, rest) := by
  rw [typeWord?, typeWords_eq, List.findSome?_map, type?, List.map_findSome?]
  congr 1
  funext t
  simp [Function.comp_def]

theorem mem_declarable_of_type? {s r : Text} {t : Ty} (h : type? s = some (t, r)) :
    t ∈ Ty.declarable := by
  obtain ⟨t', hmem, ht'⟩ := List.exists_of_findSome?_eq_some h
  obtain ⟨_, _, he⟩ := Option.map_eq_some_iff.mp ht'
  rwa [← (Prod.mk.inj he).1]

theorem mem_declarable_of_parse? {s r : Text} {d : Declarator} (h : parse? s = some (d, r)) :
    d.ty ∈ Ty.declarable := by
  unfold parse? at h
  split at h <;>
  · obtain ⟨⟨t, v⟩, ht, he⟩ := Option.map_eq_some_iff.mp h
    rw [← (Prod.mk.inj he).1]
    exact mem_declarable_of_type? ht

theorem words?_eq (s : Text) :
    words? s = (parse? s).map fun (d, rest) => (d.isFinal, d.ty.keyword, rest) := by
  rw [words?, parse?]
  cases (after? "final".toList s).bind afterGap? with
  | none =>
      simp only [typeWord?_eq, Option.map_map]
      rfl
  | some s =>
      simp only [typeWord?_eq, Option.map_map]
      rfl

theorem ofWords_keyword {d : Declarator} (h : d.ty ∈ Ty.declarable) :
    ofWords d.isFinal d.ty.keyword = .ok d := by
  rw [ofWords, Ty.parse_keyword h]
  rfl

end Declarator

namespace Declaration

def parse? (line : Text) : Option Declaration := (parse line).toOption

theorem read?_eq (line : Text) :
    read? line = (Declarator.parse? line).bind fun (declarator, s) =>
      ((afterGap? s).bind Clause.parseAll?).map fun clauses =>
        (declarator.isFinal, declarator.ty.keyword, clauses) := by
  rw [read?, Declarator.words?_eq, Option.bind_map]
  rfl

/-- The lookup of the type finds every word that the grammar lets through. -/
theorem parse_eq_elim (line : Text) :
    parse line = ((Declarator.parse? line).bind fun (declarator, s) =>
      ((afterGap? s).bind Clause.parseAll?).map fun clauses =>
        (⟨declarator, clauses⟩ : Declaration)).elim (.error (.declarationSyntax line)) .ok := by
  rw [parse, read?_eq]
  cases hd : Declarator.parse? line with
  | none => rfl
  | some p =>
      obtain ⟨declarator, s⟩ := p
      simp only [Option.bind_some]
      cases (afterGap? s).bind Clause.parseAll? with
      | none => rfl
      | some clauses =>
          have htype := Declarator.ofWords_keyword (Declarator.mem_declarable_of_parse? hd)
          simp only [Option.map_some, htype]
          rfl

/-- A declaration is a declarator, a gap and clauses. -/
theorem parse?_eq (line : Text) :
    parse? line = (Declarator.parse? line).bind fun (declarator, s) =>
      ((afterGap? s).bind Clause.parseAll?).map fun clauses => ⟨declarator, clauses⟩ := by
  rw [parse?, parse_eq_elim]
  generalize (Declarator.parse? line).bind _ = o
  cases o <;> rfl

theorem parse?_eq_some {line : Text} {d : Declaration} (h : parse? line = some d) :
    ∃ s t, Declarator.parse? line = some (d.declarator, s) ∧ afterGap? s = some t ∧
      Clause.parseAll? t = some d.clauses := by
  rw [parse?_eq] at h
  obtain ⟨⟨declarator, s⟩, hd, hs⟩ := Option.bind_eq_some_iff.mp h
  obtain ⟨cs, hbind, rfl⟩ := Option.map_eq_some_iff.mp hs
  obtain ⟨t, ht, hcs⟩ := Option.bind_eq_some_iff.mp hbind
  exact ⟨s, t, hd, ht, hcs⟩

/-- Nothing but its grammar keeps a declaration from being read. -/
theorem parse_eq (line : Text) :
    parse line = (parse? line).elim (.error (.declarationSyntax line)) .ok := by
  rw [parse?_eq, parse_eq_elim]

theorem isLine_eq (line : Text) :
    isLine line = match Declarator.parse? (trimStart line) with
      | none => false
      | some (_, s) =>
        match before? ';' (trimEnd s) with
        | some (c :: s) => isBlank c && isBlankThenLine s
        | _ => false := by
  rw [isLine, Declarator.words?_eq]
  cases Declarator.parse? (trimStart line) <;> rfl

end Declaration

theorem Env.declareLine_eq (pass : Pass) (e : Env) (line : Text) :
    e.declareLine pass line =
      if e.isGlobal && pass = .inspection then .ok e
      else
        match Declaration.parse? line with
        | none => .fail e (.declarationSyntax line)
        | some d =>
          match Clause.firstRepeated [] d.clauses with
          | some x => .fail e (.duplicateInStatement x)
          | none => Outcome.each (declareClause d.declarator) e d.clauses := by
  rw [declareLine, Declaration.parse_eq]
  cases Declaration.parse? line <;> rfl

end SJava
