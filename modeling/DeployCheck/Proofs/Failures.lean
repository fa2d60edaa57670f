import DeployCheck.CompilationUnit
import DeployCheck.Proofs.Binding.Sorts

/-!
# What cannot be compiled

Lowering stops at the first string of a program that has both a value and parts. The
strings are in the order of the documents: a string before those in its parts, and the
body of a resource before the resources in it. Everything else goes through: the binder
finds in a lowered tree what it looks for, and the analysis and the check have no way to
fail.
-/

set_option autoImplicit false

namespace DeployCheck

structure StringLiteral where
  value : Option String
  parts : List Part
  span : Option Span

def StringLiteral.isAmbiguous (s : StringLiteral) : Bool := s.value.isSome && !s.parts.isEmpty

mutual

def Expression.strings : Expression → List StringLiteral
  | .string value parts span => ⟨value, parts, span⟩ :: Part.strings parts
  | .int .. | .bool .. | .null _ | .ident .. => []
  | .array items _ => Expression.allStrings items
  | .object properties _ => Expression.propertyStrings properties
  | .property base _ _ => base.strings
  | .index base selector _ => base.strings ++ selector.strings
  | .resourceAccess base _ _ => base.strings
  | .call _ args _ => Expression.allStrings args
  | .instanceCall base _ args _ => base.strings ++ Expression.allStrings args
  | .paren inner _ => inner.strings
  | .unary _ operand _ => operand.strings
  | .binary _ left right _ => left.strings ++ right.strings
  | .ternary c t f _ => c.strings ++ (t.strings ++ f.strings)
  | .loop _ _ iterated body _ => iterated.strings ++ body.strings
  | .condition c body _ => c.strings ++ body.strings

def Expression.allStrings : List Expression → List StringLiteral
  | [] => []
  | e :: rest => e.strings ++ Expression.allStrings rest

def Expression.propertyStrings : List (String × Expression) → List StringLiteral
  | [] => []
  | (_, e) :: rest => e.strings ++ Expression.propertyStrings rest

def Part.strings : List Part → List StringLiteral
  | [] => []
  | .text _ :: rest => Part.strings rest
  | .hole e :: rest => e.strings ++ Part.strings rest

end

mutual

def Declaration.strings : Declaration → List StringLiteral
  | .param _ none _ => []
  | .param _ (some e) _ => e.strings
  | .var _ value _ => value.strings
  | .resource _ _ _ body resources _ => body.strings ++ Declaration.allStrings resources
  | .module _ _ body _ _ => body.strings
  | .output _ value _ => value.strings

def Declaration.allStrings : List Declaration → List StringLiteral
  | [] => []
  | d :: rest => d.strings ++ Declaration.allStrings rest

end

def StringLiteral.fault? (strings : List StringLiteral) : Option AmbiguousString :=
  (strings.find? isAmbiguous).map fun s => ⟨s.span⟩

namespace StringLiteral

theorem fault?_append (front back : List StringLiteral) :
    fault? (front ++ back) = (fault? front).or (fault? back) := by
  rw [fault?, List.find?_append, Option.map_or, fault?, fault?]

theorem fault?_eq_some {strings : List StringLiteral} {e : AmbiguousString} :
    fault? strings = some e ↔ ∃ front s back, strings = front ++ s :: back ∧
      (∀ t ∈ front, t.isAmbiguous = false) ∧ s.isAmbiguous = true ∧ e = ⟨s.span⟩ := by
  simp only [fault?, Option.map_eq_some_iff, List.find?_eq_some_iff_append, Bool.not_eq_true']
  constructor
  · rintro ⟨s, ⟨ambiguous, front, back, split, clear⟩, rfl⟩
    exact ⟨front, s, back, split, clear, ambiguous, rfl⟩
  · rintro ⟨front, s, back, split, clear, ambiguous, rfl⟩
    exact ⟨s, ⟨ambiguous, front, back, split, clear⟩, rfl⟩

theorem fault?_isSome {strings : List StringLiteral} :
    (∃ e, fault? strings = some e) ↔ ∃ s ∈ strings, s.value ≠ none ∧ s.parts ≠ [] := by
  rw [← Option.isSome_iff_exists, fault?, Option.isSome_map, List.find?_isSome]
  simp [isAmbiguous, Option.isSome_iff_ne_none]

end StringLiteral

namespace Lowering

variable {α β : Type} {w : Lowering α} {k : α → Lowering β}
  {strings strings' : List StringLiteral}

def fault? (w : Lowering α) (b : Builder) : Option AmbiguousString :=
  match w.run.run b with
  | (.ok _, _) => none
  | (.error e, _) => some e

/-- Lowering fails at the first ambiguous one of some strings, and at nothing else. -/
def Faults (w : Lowering α) (strings : List StringLiteral) : Prop :=
  ∀ b, w.fault? b = StringLiteral.fault? strings

theorem faults_pure (x : α) : Faults (pure x) [] := fun _ => rfl

theorem faults_build (step : Build α) : Faults (build step) [] := fun _ => rfl

theorem faults_bind (hw : Faults w strings) (hk : ∀ x, Faults (k x) strings') :
    Faults (w >>= k) (strings ++ strings') := by
  intro b
  rw [StringLiteral.fault?_append, ← hw b, fault?, fault?, run_bind]
  rcases w.run.run b with ⟨e | x, b'⟩
  · rfl
  · exact hk x b'

theorem faults_last (hw : Faults w strings) (hk : ∀ x, Faults (k x) []) :
    Faults (w >>= k) strings := by
  simpa using faults_bind hw hk

theorem faults_emit (step : Build NodeId) (span : Option Span) :
    Faults (do withSpan (← build step) span) [] := by
  apply faults_last (faults_build step)
  intro id
  cases span with
  | none => exact faults_pure id
  | some span => exact faults_last (faults_build _) fun _ => faults_pure id

theorem faults_throw {s : StringLiteral} (h : s.isAmbiguous = true) :
    Faults (throw ⟨s.span⟩ : Lowering α) (s :: strings) := by
  intro b
  rw [StringLiteral.fault?, List.find?_cons_of_pos h]
  rfl

theorem faults_skip {s : StringLiteral} (hw : Faults w strings) (h : s.isAmbiguous = false) :
    Faults w (s :: strings) := by
  intro b
  rw [hw b, StringLiteral.fault?, StringLiteral.fault?, List.find?_cons_of_neg (by simp [h])]

end Lowering

open Lowering

mutual

theorem Expression.lower_faults (e : Expression) : Faults e.lower e.strings := by
  cases e with
  | string value parts span =>
    cases parts with
    | nil => exact faults_skip (faults_emit _ _) (Bool.and_false _)
    | cons part rest =>
      cases value with
      | some value => exact faults_throw (s := ⟨some value, part :: rest, span⟩) rfl
      | none =>
        have holes := Part.lowerHoles_faults (part :: rest)
        exact faults_skip (faults_last holes fun _ => faults_emit _ _) rfl
  | int value span => exact faults_emit _ _
  | bool value span => exact faults_emit _ _
  | null span => exact faults_emit _ _
  | ident name span => exact faults_emit _ _
  | array items span =>
    exact faults_last (Expression.lowerAll_faults items) fun _ => faults_emit _ _
  | object properties span =>
    exact faults_last (Expression.lowerProperties_faults properties) fun _ => faults_emit _ _
  | property base name span => exact faults_last base.lower_faults fun _ => faults_emit _ _
  | index base selector span =>
    apply faults_bind base.lower_faults
    intro _
    exact faults_last selector.lower_faults fun _ => faults_emit _ _
  | resourceAccess base name span => exact faults_last base.lower_faults fun _ => faults_emit _ _
  | call name args span =>
    exact faults_last (Expression.lowerAll_faults args) fun _ => faults_emit _ _
  | instanceCall base name args span =>
    apply faults_bind base.lower_faults
    intro _
    exact faults_last (Expression.lowerAll_faults args) fun _ => faults_emit _ _
  | paren inner span => exact faults_last inner.lower_faults fun _ => faults_emit _ _
  | unary operator operand span => exact faults_last operand.lower_faults fun _ => faults_emit _ _
  | binary operator left right span =>
    apply faults_bind left.lower_faults
    intro _
    exact faults_last right.lower_faults fun _ => faults_emit _ _
  | ternary c t f span =>
    apply faults_bind c.lower_faults
    intro _
    apply faults_bind t.lower_faults
    intro _
    exact faults_last f.lower_faults fun _ => faults_emit _ _
  | loop item counter iterated body span =>
    apply faults_bind iterated.lower_faults
    intro _
    exact faults_last body.lower_faults fun _ => faults_emit _ _
  | condition c body span =>
    apply faults_bind c.lower_faults
    intro _
    exact faults_last body.lower_faults fun _ => faults_emit _ _

theorem Expression.lowerAll_faults (es : List Expression) :
    Faults (Expression.lowerAll es) (Expression.allStrings es) := by
  cases es with
  | nil => exact faults_pure _
  | cons e rest =>
    apply faults_bind e.lower_faults
    intro _
    exact faults_last (Expression.lowerAll_faults rest) fun _ => faults_pure _

theorem Expression.lowerProperties_faults (ps : List (String × Expression)) :
    Faults (Expression.lowerProperties ps) (Expression.propertyStrings ps) := by
  cases ps with
  | nil => exact faults_pure _
  | cons p rest =>
    apply faults_bind p.2.lower_faults
    intro _
    exact faults_last (Expression.lowerProperties_faults rest) fun _ => faults_pure _

theorem Part.lowerHoles_faults (parts : List Part) :
    Faults (Part.lowerHoles parts) (Part.strings parts) := by
  cases parts with
  | nil => exact faults_pure _
  | cons part rest =>
    cases part with
    | text piece => exact Part.lowerHoles_faults rest
    | hole e =>
      apply faults_bind e.lower_faults
      intro _
      exact faults_last (Part.lowerHoles_faults rest) fun _ => faults_pure _

end

mutual

theorem Declaration.lower_faults (d : Declaration) : Faults d.lower d.strings := by
  cases d with
  | param name default span =>
    cases default with
    | none => exact faults_last (faults_pure none) fun _ => faults_emit _ _
    | some e =>
      have value : Faults (some <$> e.lower) e.strings :=
        faults_last e.lower_faults fun _ => faults_pure _
      exact faults_last value fun _ => faults_emit _ _
  | var name value span => exact faults_last value.lower_faults fun _ => faults_emit _ _
  | resource name type existing body resources span =>
    apply faults_bind body.lower_faults
    intro _
    exact faults_last (Declaration.lowerAll_faults resources) fun _ => faults_emit _ _
  | module name path body outputs span =>
    exact faults_last body.lower_faults fun _ => faults_emit _ _
  | output name value span => exact faults_last value.lower_faults fun _ => faults_emit _ _

theorem Declaration.lowerAll_faults (ds : List Declaration) :
    Faults (Declaration.lowerAll ds) (Declaration.allStrings ds) := by
  cases ds with
  | nil => exact faults_pure _
  | cons d rest =>
    apply faults_bind d.lower_faults
    intro _
    exact faults_last (Declaration.lowerAll_faults rest) fun _ => faults_pure _

end

theorem Tree.ofProgram_error {file : String} {program : List Declaration} {e : AmbiguousString} :
    Tree.ofProgram file program = .error e ↔
      StringLiteral.fault? (Declaration.allStrings program) = some e := by
  rw [← Declaration.lowerAll_faults program Build.start, Lowering.fault?, Tree.ofProgram]
  rcases (Declaration.lowerAll program).run.run Build.start with ⟨_ | _, b⟩ <;> simp

theorem Model.build_total {file : String} {program : List Declaration} {tree : Tree}
    (lowered : Tree.ofProgram file program = .ok tree) (catalog : Catalog) :
    ∃ m, Model.build tree catalog = .ok m := by
  obtain ⟨b, bound⟩ := Binder.ofTree_total lowered
  exact ⟨_, Model.build_eq_ok_iff.2 ⟨b, bound, rfl⟩⟩

namespace CompilationUnit

theorem compile_error {u : CompilationUnit} {overrides : Option Catalog} {e : CompileError} :
    u.compile overrides = .error e ↔
      ∃ s, StringLiteral.fault? (Declaration.allStrings u.program) = some s ∧ e = .ambiguous s := by
  rw [compile]
  cases lowered : Tree.ofProgram u.file u.program with
  | error s =>
    rw [Tree.ofProgram_error] at lowered
    simp [lowered, Except.mapError, bind, Except.bind, eq_comm]
  | ok tree =>
    obtain ⟨m, built⟩ := Model.build_total lowered (u.catalog overrides)
    have none : ∀ s, StringLiteral.fault? (Declaration.allStrings u.program) ≠ some s := by
      intro s found
      have failed : Tree.ofProgram u.file u.program = .error s := Tree.ofProgram_error.2 found
      rw [lowered] at failed
      cases failed
    simp [none, built, Except.mapError, bind, Except.bind, pure, Except.pure]

/-- Compilation fails exactly where some string of the program has both a value and
parts. The error names the first of these strings, and no error comes of the model. -/
theorem compile_fails (u : CompilationUnit) (overrides : Option Catalog) :
    ((∃ e, u.compile overrides = .error e) ↔
        ∃ s ∈ Declaration.allStrings u.program, s.value ≠ none ∧ s.parts ≠ []) ∧
      (∀ e, u.compile overrides = .error e ↔
        ∃ front s back, Declaration.allStrings u.program = front ++ s :: back ∧
          (∀ t ∈ front, t.isAmbiguous = false) ∧ s.isAmbiguous = true ∧
          e = .ambiguous ⟨s.span⟩) ∧
      ∀ e, u.compile overrides ≠ .error (.model e) := by
  simp only [ne_eq, compile_error]
  refine ⟨?_, ?_, ?_⟩
  · rw [← StringLiteral.fault?_isSome]
    simp
  · simp only [StringLiteral.fault?_eq_some]
    intro e
    constructor
    · rintro ⟨_, ⟨front, s, back, split, clear, ambiguous, rfl⟩, rfl⟩
      exact ⟨front, s, back, split, clear, ambiguous, rfl⟩
    · rintro ⟨front, s, back, split, clear, ambiguous, rfl⟩
      exact ⟨_, ⟨front, s, back, split, clear, ambiguous, rfl⟩, rfl⟩
  · rintro e ⟨s, _, same⟩
    cases same

end CompilationUnit

end DeployCheck
