import DeployCheck.CommandLine.Report
import DeployCheck.Proofs.Listing

/-!
# Entries of a report

Both reports have the diagnostics of the outputs in one order. Every diagnostic is about a
name, about a type, or about a forbidden access, and stands at a span of the program.
-/

set_option autoImplicit false

namespace DeployCheck

/-- What a diagnostic says about a program: one of the rules on names and types about a text, or
the rule on accesses. -/
inductive Diagnostic.Stems (m : Model) (d : Diagnostic) : Prop where
  | duplicate (name : Identifier) (same : d = m.tree.duplicateName name)
  | unknown (name : Identifier) (same : d = m.tree.unknownName name)
  | untyped (span : Span) (type : TypeReference) (same : d = unknownType m.tree.file span type)
  | access (id : NodeId) (a : Access) (violates : m.violation? id = some a)
      (same : d = a.diagnostic m.tree.file (m.tree.arena.span id))

theorem Tree.ofProgram_file {file : String} {program : List Declaration} {tree : Tree}
    (lowered : ofProgram file program = .ok tree) : tree.file = file := by
  rw [ofProgram] at lowered
  split at lowered
  · cases lowered
    rfl
  · cases lowered

namespace Binder

variable {t : Tree} {b : Bound} {d : Diagnostic}

theorem named_clashes {members : List (Identifier × SymbolId)} (member : d ∈ t.clashes b members) :
    ∃ name, d = t.duplicateName name := by
  obtain ⟨m, -, reported⟩ := List.mem_filterMap.1 member
  obtain ⟨s, -, reported⟩ := Option.bind_eq_some_iff.1 reported
  split at reported
  · cases reported
  · cases reported
    exact ⟨m.1, rfl⟩

theorem named_unknown {n : NodeId} (reported : t.unknown? b n = some d) :
    ∃ name, d = t.unknownName name := by
  rw [Tree.unknown?] at reported
  split at reported
  · next name _ =>
    split at reported
    · cases reported
      exact ⟨name, rfl⟩
    · cases reported
  · next name _ =>
    split at reported
    · cases reported
      exact ⟨name, rfl⟩
    · cases reported
  · next name _ _ =>
    split at reported
    · cases reported
      exact ⟨name, rfl⟩
    · cases reported
  · cases reported

theorem named_bound (accounts : Accounts t b) (member : d ∈ b.diagnostics.toList) :
    ∃ name, d = t.duplicateName name ∨ d = t.unknownName name := by
  obtain ⟨ds, ds', all, clashes, unknown⟩ := accounts.reports
  rw [all, List.mem_append] at member
  rcases member with member | member
  · have twice : ∃ members, d ∈ t.clashes b members := by
      rcases List.mem_append.1 (clashes.mem_iff.1 member) with top | inner
      · exact ⟨_, top⟩
      · obtain ⟨n, -, inner⟩ := List.mem_flatMap.1 inner
        rw [Tree.innerClashes] at inner
        split at inner
        · exact ⟨_, inner⟩
        · exact ⟨_, inner⟩
        · cases inner
    obtain ⟨members, twice⟩ := twice
    obtain ⟨name, same⟩ := named_clashes twice
    exact ⟨name, .inl same⟩
  · obtain ⟨n, -, reported⟩ := List.mem_filterMap.1 (unknown.mem_iff.1 member)
    obtain ⟨name, same⟩ := named_unknown reported
    exact ⟨name, .inr same⟩

end Binder

theorem Analysis.typed_run {s : Subject} {d : Diagnostic} (member : d ∈ (run s).diagnostics.toList) :
    ∃ span type, d = unknownType s.tree.file span type := by
  obtain ⟨id, -, warned⟩ := List.mem_filterMap.1 ((run_warnings s).mem_iff.1 member)
  obtain ⟨symbol, -, rest⟩ := Option.bind_eq_some_iff.1 warned
  obtain ⟨type, -, rest⟩ := Option.bind_eq_some_iff.1 rest
  split at rest
  · cases rest
    exact ⟨_, type, untyped_eq s symbol type⟩
  · cases rest

namespace Diagnostic

variable {m : Model} {d : Diagnostic}

theorem stems_emitted {file : String} {program : List Declaration} {catalog : Catalog}
    (lowered : Tree.ofProgram file program = .ok m.tree)
    (built : Model.build m.tree catalog = .ok m) (member : d ∈ m.emitted catalog) : d.Stems m := by
  obtain ⟨-, bound, -⟩ := Analysis.build_ok built
  rw [Model.emitted, Model.early, List.mem_append, List.mem_append] at member
  rcases member with (names | types) | accesses
  · obtain ⟨name, same | same⟩ :=
      Binder.named_bound (Binder.accounts_ofTree lowered bound) names
    · exact .duplicate name same
    · exact .unknown name same
  · obtain ⟨span, type, same⟩ := Analysis.typed_run types
    exact .untyped span type same
  · obtain ⟨id, -, reported⟩ := List.mem_filterMap.1 accesses
    obtain ⟨a, violates, same⟩ := Option.map_eq_some_iff.1 reported
    exact .access id a violates same.symm

theorem Stems.spanned (stems : d.Stems m) :
    d.file = m.tree.file ∧ ∃ span : Span, d.start = span.start ∧ d.length = span.length := by
  cases stems with
  | duplicate name same | unknown name same =>
    subst same
    exact ⟨rfl, name.span, rfl, rfl⟩
  | untyped span type same =>
    subst same
    exact ⟨rfl, span, rfl, rfl⟩
  | access id a violates same =>
    subst same
    exact ⟨rfl, m.tree.arena.span id, rfl, rfl⟩

end Diagnostic

namespace CompilationUnit

variable {u : CompilationUnit} {overrides : Option Catalog} {c : Compiled}

theorem compile_stems (compiled : u.compile overrides = .ok c) :
    ∃ m : Model, m.tree.file = u.file ∧ ∀ d ∈ c.diagnostics, d.Stems m := by
  obtain ⟨m, lowered, built, final⟩ := compile_ok compiled
  refine ⟨m, Tree.ofProgram_file lowered, fun d member => ?_⟩
  rw [final] at member
  exact Diagnostic.stems_emitted lowered built
    ((Model.lists_diagnostics lowered built).perm.mem_iff.1 member)

theorem compile_same (compiled : u.compile overrides = .ok c) :
    c.file = u.file ∧ c.source = u.source := by
  rw [compile] at compiled
  cases lowered : (Tree.ofProgram u.file u.program).mapError CompileError.ambiguous with
  | error e =>
    rw [lowered] at compiled
    cases compiled
  | ok tree =>
    rw [lowered] at compiled
    cases built : (Model.build tree (u.catalog overrides)).mapError CompileError.model with
    | error e =>
      simp only [bind, Except.bind, built] at compiled
      cases compiled
    | ok m =>
      simp only [bind, Except.bind, built] at compiled
      cases compiled
      exact ⟨rfl, rfl⟩

def emitted? (u : CompilationUnit) (overrides : Option Catalog) : Option (List Diagnostic) := do
  let tree ← (Tree.ofProgram u.file u.program).toOption
  let m ← (Model.build tree (u.catalog overrides)).toOption
  return m.emitted (u.catalog overrides)

theorem compile_emitted {ds : List Diagnostic} (emitted : u.emitted? overrides = some ds) :
    ∃ c, u.compile overrides = .ok c ∧ c.source = u.source ∧ c.diagnostics.Perm ds := by
  obtain ⟨tree, lowered, rest⟩ := Option.bind_eq_some_iff.1 emitted
  obtain ⟨m, built, same⟩ := Option.bind_eq_some_iff.1 rest
  have lowered := ok_of_toOption lowered
  have built := ok_of_toOption built
  obtain ⟨rfl, -⟩ := Analysis.build_ok built
  refine ⟨⟨u.file, u.source, diagnostics m⟩, ?_, rfl, ?_⟩
  · rw [compile, lowered]
    simp only [Except.mapError, bind, Except.bind, built]
    rfl
  · cases same
    exact (Model.lists_diagnostics lowered built).perm

end CompilationUnit

namespace CommandLine

open Json

def Summary.IsCompiled (s : Summary) : Prop :=
  ∀ c ∈ s.outputs, ∃ (u : CompilationUnit) (overrides : Option Catalog), u.compile overrides = .ok c

/-- A diagnostic in a report, with the source text of its unit. -/
structure Entry where
  source : Option String
  diagnostic : Diagnostic

namespace Entry

def line (color : Bool) (e : Entry) : String :=
  diagnosticLine color (e.source.map LineMap.ofSource) e.diagnostic

def value (e : Entry) : Value := diagnosticValue (e.source.map LineMap.ofSource) e.diagnostic

end Entry

def Summary.entries (s : Summary) : List Entry :=
  s.outputs.flatMap fun c => c.diagnostics.map fun d => ⟨c.source, d⟩

theorem lines_entries (s : Summary) (color : Bool) :
    s.lines color = s.entries.map (Entry.line color) ++ s.failures.map (failureLine color) := by
  rw [Summary.lines, Summary.entries, List.map_flatMap]
  simp only [List.map_map]
  rfl

theorem value_entries (s : Summary) : s.value = .object
    [("diagnostics", .array (s.entries.map Entry.value)),
      ("failures", .array (s.failures.map failureValue))] := by
  rw [Summary.value, Summary.entries, List.map_flatMap]
  simp only [List.map_map]
  rfl

theorem mem_entries {s : Summary} {e : Entry} : e ∈ s.entries ↔
    ∃ c ∈ s.outputs, e.source = c.source ∧ e.diagnostic ∈ c.diagnostics := by
  obtain ⟨source, d⟩ := e
  simp only [Summary.entries, List.mem_flatMap, List.mem_map, Entry.mk.injEq]
  constructor
  · rintro ⟨c, output, d', member, rfl, rfl⟩
    exact ⟨c, output, rfl, member⟩
  · rintro ⟨c, output, rfl, member⟩
    exact ⟨c, output, d, member, rfl, rfl⟩

theorem exists_summary {u : CompilationUnit} {overrides : Option Catalog} {d : Diagnostic}
    (emitted : u.emitted? overrides = some [d]) (failures : List FailedUnit) :
    ∃ s : Summary, s.IsCompiled ∧ s.failures = failures ∧ s.entries = [⟨u.source, d⟩] := by
  obtain ⟨c, compiled, source, perm⟩ := CompilationUnit.compile_emitted emitted
  refine ⟨⟨[c], failures⟩, ?_, rfl, ?_⟩
  · intro c' output
    rw [List.mem_singleton] at output
    exact ⟨u, overrides, output ▸ compiled⟩
  · rw [Summary.entries, List.flatMap_singleton, List.perm_singleton.1 perm, source]
    rfl

end CommandLine

end DeployCheck
