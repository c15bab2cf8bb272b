import Mathlib.Data.List.Forall2
import RequestCompiler.Proofs.Directive.Line
import RequestCompiler.Proofs.Text.Lines

/-!
# The grammar of programs

`Program.Grammatical` says which sources are programs: one line at least holds more than blanks,
the first such line is a profile directive without deltas and the later ones are bundle
directives. `Program.Lists` says what a program holds: the directives of these lines in order,
with the numbers of their lines. `parse_eq_ok_iff` ties `parse` to both.
-/

namespace RequestCompiler.Program

/-- The lines of a source of which trimming leaves something, each with its number among all
lines. -/
def CodeLines (source : Text) (ls : List (Text × Nat)) : Prop :=
  ∃ all, Text.Broken source all ∧ ls = (all.zipIdx 1).filter fun l => l.1.trim ≠ []

/-- The first directive names a profile and has no deltas; every other line names a bundle. -/
def Grammatical (source : Text) : Prop :=
  ∃ first later, CodeLines source (first :: later) ∧
    (∃ id, Directive.Written first.1.trim id [] ∧ Directive.isProfileId id = true) ∧
    ∀ l ∈ later, ∃ id ds, Directive.Written l.1.trim id ds ∧ Directive.isProfileId id = false

/-- The numbered line is the directive. -/
def IsDirective (l : Text × Nat) (d : Directive) : Prop :=
  Directive.Written l.1.trim d.id d.deltas ∧ d.line = l.2

/-- The directives of a program are the code lines of a source, in order. -/
def Lists (p : Program) (source : Text) : Prop :=
  ∃ ls, CodeLines source ls ∧ List.Forall₂ IsDirective ls (p.profile :: p.bundles)

theorem codeLines_iff {source : Text} {ls : List (Text × Nat)} :
    CodeLines source ls ↔ codeLines source = ls := by
  have same : ∀ l : Text × Nat, (!l.1.isBlankText) = decide (l.1.trim ≠ []) := fun l => by
    cases blank : l.1.isBlankText <;> simp [Text.trim_eq_nil_iff, blank]
  simp only [CodeLines, codeLines, same]
  constructor
  · rintro ⟨all, broken, rfl⟩
    rw [broken.lines]
  · rintro rfl
    exact ⟨Text.lines source, Text.broken_lines source, rfl⟩

/-- Nothing is wrong with the order of directives exactly if the first one is a profile without
deltas and no other one is a profile. -/
theorem structureErrors_eq_nil_iff {profile : Directive} {bundles : List Directive} :
    structureErrors (profile :: bundles) = [] ↔
      Directive.isProfileId profile.id = true ∧ profile.deltas = [] ∧
        ∀ b ∈ bundles, Directive.isProfileId b.id = false := by
  simp only [structureErrors, List.append_eq_nil_iff, List.map_eq_nil_iff, List.filter_eq_nil_iff,
    Bool.not_eq_true, and_assoc]
  simp

/-- A program is answered if every code line is read and the directives are in order. -/
theorem parse_eq_ok_iff_results {source : Text} {p : Program} :
    parse source = .ok p ↔
      (codeLines source).map (fun l => Directive.parseLine l.1 l.2)
        = (p.profile :: p.bundles).map .ok ∧
      structureErrors (p.profile :: p.bundles) = [] := by
  generalize results : (codeLines source).map (fun l => Directive.parseLine l.1 l.2) = rs
  have faulty : ∀ es, .error es ∈ rs → es ≠ [] := fun es member => by
    rw [← results] at member
    obtain ⟨l, -, read⟩ := List.mem_map.1 member
    exact Directive.parseLine_error_ne_nil read
  simp only [parse, results]
  constructor
  · intro h
    split at h
    · rename_i profile bundles none directives
      obtain rfl := Except.ok.inj h
      simp only [List.append_eq_nil_iff, List.flatMap_eq_nil_iff] at none
      have answered : ∀ r ∈ rs, ∃ d, r = .ok d := fun r hr => by
        cases r with
        | ok d => exact ⟨d, rfl⟩
        | error es => exact absurd (none.1.1 _ hr) (faulty es hr)
      exact ⟨eq_map_ok_iff.2 ⟨answered, directives⟩, directives ▸ none.2⟩
    · cases h
  · rintro ⟨same, ordered⟩
    have directives := (eq_map_ok_iff.1 same).2
    subst same
    have silent : ∀ ds : List Directive, ds.flatMap (fun _ => ([] : List ParseError)) = [] := by simp
    simp only [directives, ordered, List.flatMap_map, silent, List.isEmpty_cons, Bool.and_false]
    rfl

/-- A source is a program exactly if its code lines are directives in the right order, and then
it is the program of these directives. -/
theorem parse_eq_ok_iff {source : Text} {p : Program} :
    parse source = .ok p ↔
      p.Lists source ∧ Directive.isProfileId p.profile.id = true ∧ p.profile.deltas = [] ∧
        ∀ b ∈ p.bundles, Directive.isProfileId b.id = false := by
  rw [parse_eq_ok_iff_results, structureErrors_eq_nil_iff]
  refine and_congr_left fun _ => ?_
  rw [← List.forall₂_eq_eq_eq, List.forall₂_map_left_iff, List.forall₂_map_right_iff]
  simp only [Directive.parseLine_eq_ok_iff, Lists, codeLines_iff, exists_eq_left']
  rfl

/-- The directives of a program have names for ids and renderable deltas. -/
theorem written_of_parse {source : Text} {p : Program} (parsed : parse source = .ok p) :
    ∀ d ∈ p.profile :: p.bundles, isName d.id = true ∧ ∀ e ∈ d.deltas, e.isRenderable = true := by
  obtain ⟨⟨ls, -, listed⟩, -⟩ := parse_eq_ok_iff.1 parsed
  generalize p.profile :: p.bundles = ds at listed
  induction listed with
  | nil => nofun
  | cons head _ ih => exact List.forall_mem_cons.2 ⟨⟨head.1.name, head.1.renderable⟩, ih⟩

/-- A refused source is refused with at least one error. -/
theorem parse_error_ne_nil {source : Text} {errors : List ParseError}
    (h : parse source = .error errors) : errors ≠ [] := by
  simp only [parse] at h
  generalize List.flatMap _ _ = lineErrors at h
  generalize List.filterMap _ _ = directives at h
  rintro rfl
  cases directives with
  | nil => cases lineErrors <;> simp at h
  | cons profile bundles =>
    split at h
    · cases h
    · rename_i refused
      exact refused profile bundles (Except.error.inj h) rfl

/-- Lines are some bundle directives exactly if each line has the form of one. -/
theorem exists_bundles_iff {ls : List (Text × Nat)} :
    (∃ bundles, List.Forall₂ IsDirective ls bundles ∧
      ∀ b ∈ bundles, Directive.isProfileId b.id = false) ↔
    ∀ l ∈ ls, ∃ id ds, Directive.Written l.1.trim id ds ∧ Directive.isProfileId id = false := by
  induction ls with
  | nil => simp
  | cons l ls ih =>
    rw [List.forall_mem_cons, ← ih]
    constructor
    · rintro ⟨bundles, listed, others⟩
      obtain ⟨b, bs, head, tail, rfl⟩ := List.forall₂_cons_left_iff.1 listed
      rw [List.forall_mem_cons] at others
      exact ⟨⟨b.id, b.deltas, head.1, others.1⟩, bs, tail, others.2⟩
    · rintro ⟨⟨id, ds, written, other⟩, bs, tail, others⟩
      exact ⟨⟨id, ds, l.2⟩ :: bs, .cons ⟨written, rfl⟩ tail, List.forall_mem_cons.2 ⟨other, others⟩⟩

/-- The grammar is the domain of `parse`. -/
theorem exists_parse_eq_ok_iff {source : Text} :
    (∃ p, parse source = .ok p) ↔ Grammatical source := by
  simp only [parse_eq_ok_iff]
  constructor
  · rintro ⟨p, ⟨ls, lines, listed⟩, isProfile, none, others⟩
    obtain ⟨first, later, head, tail, rfl⟩ := List.forall₂_cons_right_iff.1 listed
    have profile := head.1
    rw [none] at profile
    exact ⟨first, later, lines, ⟨p.profile.id, profile, isProfile⟩,
      exists_bundles_iff.1 ⟨p.bundles, tail, others⟩⟩
  · rintro ⟨first, later, lines, ⟨id, head, isProfile⟩, tail⟩
    obtain ⟨bundles, listed, others⟩ := exists_bundles_iff.2 tail
    exact ⟨⟨⟨id, [], first.2⟩, bundles⟩, ⟨first :: later, lines, .cons ⟨head, rfl⟩ listed⟩,
      isProfile, rfl, others⟩

/-- Exactly the sources of the grammar are programs. A program lists the code lines of its
source, and a source that is none is answered with at least one error. -/
theorem parse_accepts_grammar (source : Text) :
    ((∃ p, parse source = .ok p) ↔ Grammatical source) ∧
      (∀ p, parse source = .ok p → p.Lists source) ∧
      ∀ errors, parse source = .error errors → errors ≠ [] :=
  ⟨exists_parse_eq_ok_iff, fun _ h => (parse_eq_ok_iff.1 h).1, fun _ h => parse_error_ne_nil h⟩

end RequestCompiler.Program
