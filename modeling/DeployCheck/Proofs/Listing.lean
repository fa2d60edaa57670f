import DeployCheck.CompilationUnit
import DeployCheck.Proofs.Analysis.Warnings
import DeployCheck.Proofs.Tree.PostOrder
import DeployCheck.Proofs.Violations

/-!
# How diagnostics are listed

The diagnostics of a model are sorted by starts and codes, those of the check are put
behind them, and all of them are sorted again, by starts only. Both sorts keep the order of
what they do not tell apart, and the check has the greatest code. So nothing is lost, the
result is in the order of starts and codes, and what agrees in both stays as it was
reported.
-/

set_option autoImplicit false

namespace DeployCheck

theorem filter_mergeSort {α : Type} {le : α → α → Bool}
    (trans : ∀ a b c, le a b = true → le b c = true → le a c = true)
    (total : ∀ a b, (le a b || le b a) = true) {p : α → Bool}
    (tied : ∀ a b, p a = true → p b = true → le a b = true) (l : List α) :
    (l.mergeSort le).filter p = l.filter p := by
  have ordered : (l.filter p).Pairwise fun a b => le a b = true :=
    List.pairwise_filter.2 (List.pairwise_of_forall tied)
  have kept : (l.filter p).Sublist (l.mergeSort le) :=
    List.sublist_mergeSort trans total ordered List.filter_sublist
  have inside := kept.filter p
  rw [List.filter_eq_self.2 fun a member => (List.mem_filter.1 member).2] at inside
  exact (inside.eq_of_length ((List.mergeSort_perm l le).filter p).length_eq.symm).symm

namespace Diagnostic

variable {ds checks : List Diagnostic}

def startsAt (start : Nat) (d : Diagnostic) : Bool := d.start == start

def standsAt (start code : Nat) (d : Diagnostic) : Bool := d.start == start && d.code == code

/-- Diagnostics in the order of their starts and codes: nothing is lost, and what agrees in
both is in the order in which it was emitted. -/
structure Lists (emitted listed : List Diagnostic) : Prop where
  perm : listed.Perm emitted
  sorted : listed.Pairwise fun d d' => d.start < d'.start ∨ d.start = d'.start ∧ d.code ≤ d'.code
  stable : ∀ start code, listed.filter (standsAt start code) = emitted.filter (standsAt start code)

theorem before_iff {d d' : Diagnostic} : d.before d' = true ↔
    d.start < d'.start ∨ d.start = d'.start ∧ d.code ≤ d'.code := by
  simp [before]

theorem before_trans (a b c : Diagnostic) (first : a.before b = true) (second : b.before c = true) :
    a.before c = true := by
  rw [before_iff] at *
  omega

theorem before_total (a b : Diagnostic) : (a.before b || b.before a) = true := by
  rw [Bool.or_eq_true, before_iff, before_iff]
  omega

theorem start_trans (a b c : Diagnostic) (first : decide (a.start ≤ b.start) = true)
    (second : decide (b.start ≤ c.start) = true) : decide (a.start ≤ c.start) = true := by
  rw [decide_eq_true_eq] at *
  exact Nat.le_trans first second

theorem start_total (a b : Diagnostic) :
    (decide (a.start ≤ b.start) || decide (b.start ≤ a.start)) = true := by
  rw [Bool.or_eq_true, decide_eq_true_eq, decide_eq_true_eq]
  exact Nat.le_total _ _

theorem filter_before (l : List Diagnostic) (start code : Nat) :
    (l.mergeSort before).filter (standsAt start code) = l.filter (standsAt start code) := by
  refine filter_mergeSort before_trans before_total (fun a b here there => ?_) l
  simp only [standsAt, Bool.and_eq_true, beq_iff_eq] at here there
  rw [before_iff]
  omega

theorem filter_start (l : List Diagnostic) (start : Nat) :
    (l.mergeSort fun a b => a.start ≤ b.start).filter (startsAt start) =
      l.filter (startsAt start) := by
  refine filter_mergeSort start_trans start_total (fun a b here there => ?_) l
  simp only [startsAt, beq_iff_eq] at here there
  rw [decide_eq_true_eq]
  omega

theorem filter_standsAt (l : List Diagnostic) (start code : Nat) :
    l.filter (standsAt start code) =
      (l.filter (startsAt start)).filter fun d => d.code == code := by
  rw [List.filter_filter]
  exact List.filter_congr fun d _ => Bool.and_comm _ _

theorem codes_ascend {code : Nat} (below : ∀ d ∈ ds, d.code < code)
    (same : ∀ d ∈ checks, d.code = code) (start : Nat) :
    ((ds.mergeSort before ++ checks).filter (startsAt start)).Pairwise
      fun d d' => d.code ≤ d'.code := by
  rw [List.pairwise_filter, List.pairwise_append]
  refine ⟨?_, ?_, ?_⟩
  · refine (List.pairwise_mergeSort before_trans before_total ds).imp ?_
    intro d d' ordered here there
    rw [before_iff] at ordered
    simp only [startsAt, beq_iff_eq] at here there
    omega
  · refine List.pairwise_of_forall_mem_list fun d member d' member' _ _ => ?_
    rw [same d member, same d' member']
  · intro d member d' late _ _
    rw [same d' late]
    exact Nat.le_of_lt (below d ((List.mergeSort_perm ds before).mem_iff.1 member))

/-- Sorted by starts and codes, and again by starts with greater codes behind, the
diagnostics are listed. -/
theorem lists_sorts {code : Nat} (below : ∀ d ∈ ds, d.code < code)
    (same : ∀ d ∈ checks, d.code = code) :
    Lists (ds ++ checks)
      ((ds.mergeSort before ++ checks).mergeSort fun a b => a.start ≤ b.start) := by
  constructor
  · exact (List.mergeSort_perm _ _).trans ((List.mergeSort_perm ds before).append_right checks)
  · refine List.pairwise_of_forall_sublist fun {d d'} pair => ?_
    have starts := List.pairwise_iff_forall_sublist.1
      (List.pairwise_mergeSort start_trans start_total (ds.mergeSort before ++ checks)) pair
    rw [decide_eq_true_eq] at starts
    rcases Nat.lt_or_eq_of_le starts with less | tie
    · exact .inl less
    · have ascend := codes_ascend below same d.start
      rw [← filter_start] at ascend
      have both := pair.filter (startsAt d.start)
      have kept : [d, d'].filter (startsAt d.start) = [d, d'] := by simp [startsAt, tie]
      rw [kept] at both
      exact .inr ⟨tie, List.pairwise_iff_forall_sublist.1 ascend both⟩
  · intro start code'
    rw [filter_standsAt, filter_start, ← filter_standsAt, List.filter_append, filter_before,
      List.filter_append]

theorem filter_last {code : Nat} (below : ∀ d ∈ ds, d.code < code)
    (same : ∀ d ∈ checks, d.code = code) (start : Nat) :
    (ds ++ checks).filter (standsAt start code) = checks.filter (startsAt start) := by
  have none : ds.filter (standsAt start code) = [] := by
    refine List.filter_eq_nil_iff.2 fun d member => ?_
    simp [standsAt, Nat.ne_of_lt (below d member)]
  rw [List.filter_append, none, List.nil_append]
  refine List.filter_congr fun d member => ?_
  simp [standsAt, startsAt, same d member]

theorem Breaks.isError {d : Diagnostic} {rule : Rule} (breaks : d.Breaks rule) :
    d.isError = false ↔ d.codeText = "BCP081" := by
  rw [Diagnostic.isError, codeText, breaks.severity, breaks.code]
  cases rule <;> decide +kernel

end Diagnostic

open Diagnostic

theorem Model.breaks_check {m : Model} {d : Diagnostic} (member : d ∈ m.check) :
    d.Breaks .runtimeAccess := by
  obtain ⟨id, _, reported⟩ := List.mem_filterMap.1 member
  obtain ⟨a, _, rfl⟩ := Option.map_eq_some_iff.1 reported
  exact ⟨rfl, rfl⟩

namespace Model

variable {m : Model}

theorem violates_lt {id : NodeId} {symbol : Symbol} (h : m.Violates id symbol) :
    id < m.tree.arena.size := by
  cases h with
  | property here => exact Arena.data?_lt here
  | literal here => exact Arena.data?_lt here
  | interpolated here => exact Arena.data?_lt here
  | call here => exact Arena.data?_lt here

theorem reports_sublist {ids ids' : List NodeId} {ds : List Diagnostic} (reports : m.Reports ids ds)
    (part : ids'.Sublist ids) : ∃ ds', m.Reports ids' ds' ∧ ds'.Sublist ds := by
  induction reports generalizing ids' with
  | nil =>
    cases part
    exact ⟨[], .nil, .slnil⟩
  | quiet allowed _ ih =>
    cases part with
    | cons _ part => exact ih part
    | cons_cons _ part =>
      obtain ⟨ds', reports, sublist⟩ := ih part
      exact ⟨ds', .quiet allowed reports, sublist⟩
  | @error id _ symbol d _ violates reported _ ih =>
    cases part with
    | cons _ part =>
      obtain ⟨ds', reports, sublist⟩ := ih part
      exact ⟨ds', reports, sublist.cons d⟩
    | cons_cons _ part =>
      obtain ⟨ds', reports, sublist⟩ := ih part
      exact ⟨d :: ds', .error violates reported reports, sublist.cons_cons d⟩

section Lowered

variable {file : String} {program : List Declaration}
  (lowered : Tree.ofProgram file program = .ok m.tree)
include lowered

theorem literal_single (n : Nat) (segments : List String)
    (here : m.tree.arena.data? n = some (.string segments [])) : segments.length = 1 :=
  (Tree.ofProgram_node lowered here).1

theorem violates_unique {id : NodeId} {symbol symbol' : Symbol} (h : m.Violates id symbol)
    (h' : m.Violates id symbol') : symbol = symbol' := by
  obtain ⟨a, found, rfl⟩ := (violates_iff (literal_single lowered)).1 h
  obtain ⟨a', found', rfl⟩ := (violates_iff (literal_single lowered)).1 h'
  rw [found] at found'
  cases found'
  rfl

theorem reports_pair {outer inner : NodeId} {symbol symbol' : Symbol} {ds : List Diagnostic}
    (reports : m.Reports [outer, inner] ds) (first : m.Violates outer symbol)
    (second : m.Violates inner symbol') :
    ∃ d d', ds = [d, d'] ∧ m.Reported outer symbol d ∧ m.Reported inner symbol' d' := by
  cases reports with
  | quiet allowed => exact absurd ⟨symbol, first⟩ allowed
  | @error _ _ _ d _ violates reported rest =>
    cases rest with
    | quiet allowed => exact absurd ⟨symbol', second⟩ allowed
    | @error _ _ _ d' _ violates' reported' rest =>
      cases rest
      rw [violates_unique lowered first violates, violates_unique lowered second violates']
      exact ⟨d, d', rfl, reported, reported'⟩

theorem reports_startsAt (start : Nat) :
    m.Reports ((m.tree.arena.visit m.tree.root).filter fun id =>
        (m.tree.arena.span id).start == start) (m.check.filter (startsAt start)) := by
  have same : m.check.filter (startsAt start) =
      ((m.tree.arena.visit m.tree.root).filter fun id =>
        (m.tree.arena.span id).start == start).filterMap fun id =>
          (m.violation? id).map fun a => a.diagnostic m.tree.file (m.tree.arena.span id) := by
    rw [check, List.filter_filterMap, List.filterMap_filter]
    refine List.filterMap_congr fun id _ => ?_
    cases m.violation? id with
    | none => simp
    | some a =>
      rw [Option.map_some, Option.filter_some]
      rfl
  rw [same]
  exact reports_filterMap (literal_single lowered) _

theorem violates_before {outer inner : NodeId} {symbol : Symbol} (h : m.Violates outer symbol)
    (nested : m.tree.arena.Below outer inner) (other : inner ≠ outer) :
    [outer, inner].Sublist (m.tree.arena.visit m.tree.root) := by
  obtain ⟨_, laid⟩ := Tree.ofProgram_root lowered
  have walk : m.tree.arena.PreOrder [m.tree.root] (m.tree.arena.visit m.tree.root) :=
    Arena.lays_preOrder laid (Nat.le_succ _)
  have visited : outer ∈ m.tree.arena.visit m.tree.root := by
    rw [(Arena.lays_perm laid walk).mem_iff, ← List.range_eq_range', List.mem_range]
    exact violates_lt h
  exact Arena.preOrder_below walk visited nested other

end Lowered

def early (m : Model) (catalog : Catalog) : List Diagnostic :=
  m.bound.diagnostics.toList ++ (Analysis.run (.ofModel m catalog)).diagnostics.toList

def emitted (m : Model) (catalog : Catalog) : List Diagnostic := m.early catalog ++ m.check

theorem diagnostics_of_build {tree : Tree} {catalog : Catalog} (built : build tree catalog = .ok m) :
    m.diagnostics = (m.early catalog).mergeSort Diagnostic.before := by
  obtain ⟨_, _, rfl⟩ := build_eq_ok_iff.1 built
  rfl

section Built

variable {file : String} {program : List Declaration} {catalog : Catalog}
  (lowered : Tree.ofProgram file program = .ok m.tree) (built : build m.tree catalog = .ok m)
include lowered built

theorem early_breaks {d : Diagnostic} (member : d ∈ m.early catalog) :
    ∃ rule : Rule, d.Breaks rule ∧ rule.code < Rule.runtimeAccess.code := by
  obtain ⟨_, bound, _⟩ := Analysis.build_ok built
  rcases List.mem_append.1 member with names | types
  · rcases Binder.breaks_bound (Binder.accounts_ofTree lowered bound) names with twice | unknown
    · exact ⟨_, twice, by decide⟩
    · exact ⟨_, unknown, by decide⟩
  · exact ⟨_, Analysis.breaks_run _ types, by decide⟩

theorem early_below (d : Diagnostic) (member : d ∈ m.early catalog) :
    d.code < Rule.runtimeAccess.code := by
  obtain ⟨rule, breaks, less⟩ := early_breaks lowered built member
  exact breaks.code ▸ less

theorem lists_diagnostics : Lists (m.emitted catalog) (CompilationUnit.diagnostics m) := by
  rw [CompilationUnit.diagnostics, diagnostics_of_build built]
  exact lists_sorts (early_below lowered built) fun d member => (breaks_check member).code

theorem reports_diagnostics (start : Nat) :
    m.Reports ((m.tree.arena.visit m.tree.root).filter fun id =>
        (m.tree.arena.span id).start == start)
      ((CompilationUnit.diagnostics m).filter (standsAt start Rule.runtimeAccess.code)) := by
  rw [(lists_diagnostics lowered built).stable, emitted,
    filter_last (early_below lowered built) fun d member => (breaks_check member).code]
  exact reports_startsAt lowered start

/-- Of two accesses that start together, the outer one is listed first. -/
theorem outer_first {outer inner : NodeId} {symbol symbol' : Symbol}
    (first : m.Violates outer symbol) (second : m.Violates inner symbol')
    (nested : m.tree.arena.Below outer inner) (other : inner ≠ outer)
    (tie : (m.tree.arena.span outer).start = (m.tree.arena.span inner).start) :
    ∃ d d', m.Reported outer symbol d ∧ m.Reported inner symbol' d' ∧
      [d, d'].Sublist (CompilationUnit.diagnostics m) := by
  have starting := (violates_before lowered first nested other).filter fun id =>
    (m.tree.arena.span id).start == (m.tree.arena.span outer).start
  have kept : ([outer, inner].filter fun id =>
      (m.tree.arena.span id).start == (m.tree.arena.span outer).start) = [outer, inner] := by
    simp [tie]
  rw [kept] at starting
  obtain ⟨ds, reports, sublist⟩ := reports_sublist (reports_diagnostics lowered built _) starting
  obtain ⟨d, d', rfl, reported, reported'⟩ := reports_pair lowered reports first second
  exact ⟨d, d', reported, reported', sublist.trans List.filter_sublist⟩

theorem warnings_iff : (CompilationUnit.diagnostics m).any isError = false ↔
    ∀ d ∈ CompilationUnit.diagnostics m, d.codeText = "BCP081" := by
  rw [List.any_eq_false]
  refine forall₂_congr fun d member => ?_
  rw [Bool.not_eq_true]
  rw [(lists_diagnostics lowered built).perm.mem_iff, emitted, List.mem_append] at member
  rcases member with early | late
  · obtain ⟨rule, breaks, _⟩ := early_breaks lowered built early
    exact breaks.isError
  · exact (breaks_check late).isError

end Built

end Model

namespace CompilationUnit

variable {u : CompilationUnit} {overrides : Option Catalog} {c : Compiled}

theorem compile_ok (compiled : u.compile overrides = .ok c) :
    ∃ m, Tree.ofProgram u.file u.program = .ok m.tree ∧
      Model.build m.tree (u.catalog overrides) = .ok m ∧ c.diagnostics = diagnostics m := by
  rw [compile] at compiled
  cases lowered : Tree.ofProgram u.file u.program with
  | error e =>
    rw [lowered] at compiled
    cases compiled
  | ok tree =>
    rw [lowered] at compiled
    cases built : Model.build tree (u.catalog overrides) with
    | error e =>
      simp only [Except.mapError, bind, Except.bind, built] at compiled
      cases compiled
    | ok m =>
      simp only [Except.mapError, bind, Except.bind, built] at compiled
      cases compiled
      obtain ⟨rfl, _⟩ := Analysis.build_ok built
      exact ⟨m, rfl, built, rfl⟩

/-- The diagnostics of a unit are all those of the binder, of the analysis and of the check, in
the order of their starts and codes, and as they were emitted where these agree. So the
accesses that are reported at one start are in pre-order, an outer access before those in
it. The unit has no errors if all its diagnostics are warnings about unknown types. -/
theorem compile_listed (compiled : u.compile overrides = .ok c) :
    ∃ m order, Tree.ofProgram u.file u.program = .ok m.tree ∧
      Model.build m.tree (u.catalog overrides) = .ok m ∧
      Lists (m.emitted (u.catalog overrides)) c.diagnostics ∧
      m.tree.arena.PreOrder [m.tree.root] order ∧
      (∀ start, m.Reports (order.filter fun id => (m.tree.arena.span id).start == start)
        (c.diagnostics.filter (standsAt start Rule.runtimeAccess.code))) ∧
      (∀ outer inner symbol symbol', m.Violates outer symbol → m.Violates inner symbol' →
        m.tree.arena.Below outer inner → inner ≠ outer →
        (m.tree.arena.span outer).start = (m.tree.arena.span inner).start →
        ∃ d d', m.Reported outer symbol d ∧ m.Reported inner symbol' d' ∧
          [d, d'].Sublist c.diagnostics) ∧
      (c.hasErrors = false ↔ ∀ d ∈ c.diagnostics, d.codeText = "BCP081") := by
  obtain ⟨m, lowered, built, final⟩ := compile_ok compiled
  obtain ⟨_, laid⟩ := Tree.ofProgram_root lowered
  rw [Compiled.hasErrors, final]
  refine ⟨m, m.tree.arena.visit m.tree.root, lowered, built, Model.lists_diagnostics lowered built,
    Arena.lays_preOrder laid (Nat.le_succ _), Model.reports_diagnostics lowered built, ?_,
    Model.warnings_iff lowered built⟩
  intro outer inner symbol symbol' first second nested other tie
  exact Model.outer_first lowered built first second nested other tie

def selected : CompilationUnit where
  file := "main.json"
  source := none
  types := []
  program :=
    [.resource "r" "T@1" true (.object [("name", .call "reference" [] none)] none) [] none,
      .output "o" (.array [.ident "x" none, .index (.ident "r" none)
        (.string none [.hole (.property (.ident "r" none) "tags" (some (.between 32 40)))] none)
        (some (.between 32 44))] none) none]

theorem compile_listed_selected : ∃ (c : Compiled) (m : Model),
    selected.compile none = .ok c ∧ Model.build m.tree (selected.catalog none) = .ok m ∧
    ((m.emitted (selected.catalog none)).map fun d => (d.start, d.code, d.length)) =
      [(32, 57, 1), (30, 81, 1), (32, 307, 12), (32, 307, 8)] ∧
    Lists (m.emitted (selected.catalog none)) c.diagnostics ∧
    (c.diagnostics.filter (standsAt 32 307)).map Diagnostic.length = [12, 8] := by
  have succeeds : (selected.compile none).toOption.isSome = true := by decide +kernel
  have run : ((Tree.ofProgram selected.file selected.program).toOption.bind fun tree =>
      (Model.build tree (selected.catalog none)).toOption.map fun m =>
        ((m.emitted (selected.catalog none)).map fun d => (d.start, d.code, d.length),
          ((m.emitted (selected.catalog none)).filter (standsAt 32 307)).map Diagnostic.length)) =
      some ([(32, 57, 1), (30, 81, 1), (32, 307, 12), (32, 307, 8)], [12, 8]) := by
    decide +kernel
  obtain ⟨c, compiled⟩ := Option.isSome_iff_exists.1 succeeds
  have compiled := ok_of_toOption compiled
  obtain ⟨m, _, lowered, built, lists, _⟩ := compile_listed compiled
  rw [lowered, Except.toOption, Option.bind_some, built, Except.toOption, Option.map_some,
    Option.some.injEq, Prod.mk.injEq] at run
  exact ⟨c, m, compiled, built, run.1, lists, by rw [lists.stable, run.2]⟩

end CompilationUnit

end DeployCheck
