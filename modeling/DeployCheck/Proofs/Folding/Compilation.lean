import DeployCheck.Proofs.Failures
import DeployCheck.Proofs.Folding.Analysis

/-!
# Compiling folded units

A unit compiles as the folded one does. So units whose programs differ only in the
case of used names compile alike: what their nodes refer to is the same, and so are
the names that are readable and the rules that are broken.
-/

set_option autoImplicit false

namespace DeployCheck

open ObjectType (members)

/-- What a model says about the nodes of its program, and what is reported where. -/
structure Outline where
  symbols : Array Symbol
  names : Array (Option SymbolId)
  declarations : Array (Option SymbolId)
  references : NodeId → Option Reference
  targets : NodeId → Option SymbolId
  existing : List (SymbolId × Option Bool)
  reports : List (Nat × Nat × Nat)

/-- The types of symbols stand in lower case. Existing resources are listed with the
readability of their names. -/
def Model.outline (m : Model) : Outline where
  symbols := m.bound.symbols.map Symbol.folded
  names := m.bound.names
  declarations := m.bound.declarations
  references := m.reference?
  targets := m.target?
  existing := ((List.range m.bound.symbols.size).filter fun id =>
      (m.bound.symbol? id).any Symbol.isExistingResource).map fun id =>
    (id, (m.body? id).map (·.isReadable ObjectType.nameProperty))
  reports := (CompilationUnit.diagnostics m).map Diagnostic.place

namespace CompilationUnit

/-- A unit whose program is folded. Its text does not count. -/
def folded (u : CompilationUnit) : CompilationUnit :=
  ⟨u.file, none, u.types, Declaration.allFolded u.program⟩

def model (u : CompilationUnit) (overrides : Option Catalog) : Except CompileError Model := do
  let tree ← (Tree.ofProgram u.file u.program).mapError .ambiguous
  (Model.build tree (u.catalog overrides)).mapError .model

theorem compile_model (u : CompilationUnit) (overrides : Option Catalog) :
    u.compile overrides = (u.model overrides).map fun m => ⟨u.file, u.source, diagnostics m⟩ := by
  rw [compile, model]
  cases Tree.ofProgram u.file u.program with
  | error e => rfl
  | ok tree =>
    cases built : Model.build tree (u.catalog overrides) <;>
      simp [built, Except.mapError, bind, Except.bind, pure, Except.pure, Except.map]

end CompilationUnit

structure Model.Folds (m m' : Model) : Prop where
  tree : m'.tree = m.tree.folded
  bound : m.bound.Folds m'.bound
  bodies : ∀ symbol, (m'.body? symbol).map members = (m.body? symbol).map members
  places : m'.diagnostics.map Diagnostic.place = m.diagnostics.map Diagnostic.place

theorem places_before (ds : List Diagnostic) :
    (ds.mergeSort Diagnostic.before).map Diagnostic.place = (ds.map Diagnostic.place).mergeSort
      fun a b => a.2.1 < b.2.1 || (a.2.1 == b.2.1 && a.1 ≤ b.1) :=
  List.map_mergeSort fun _ _ _ _ => rfl

theorem places_start (ds : List Diagnostic) :
    (ds.mergeSort fun a b => a.start ≤ b.start).map Diagnostic.place =
      (ds.map Diagnostic.place).mergeSort fun a b => a.2.1 ≤ b.2.1 :=
  List.map_mergeSort fun _ _ _ _ => rfl

theorem Model.build_folded {t : Tree} {catalog : Catalog} {m : Model}
    (descends : ∀ q c, t.arena.IsChild q c → c < q) (built : Model.build t catalog = .ok m) :
    ∃ m', Model.build t.folded catalog = .ok m' ∧ m.Folds m' := by
  obtain ⟨b, bound, rfl⟩ := build_eq_ok_iff.1 built
  obtain ⟨b', bound', h⟩ := Bound.ofTree_folded descends bound
  have memo := Analysis.run_folded (s := ⟨t, b, catalog⟩) h
  refine ⟨_, build_eq_ok_iff.2 ⟨b', bound', rfl⟩, rfl, h, memo.body?, ?_⟩
  have names := congrArg Array.toList h.places
  have types := congrArg Array.toList memo.places
  simp only [Array.toList_map] at names types
  simp only [places_before, List.map_append, names, ← types]
  rfl

structure Access.Folds (a a' : Access) : Prop where
  symbol : a'.symbol = a.symbol.folded
  body : a'.body.members = a.body.members

theorem rel_filter {α β : Type} {r : α → β → Prop} {x : Option α} {x' : Option β} {p : α → Bool}
    {p' : β → Bool} (h : Option.Rel r x x') (same : ∀ a a', r a a' → p' a' = p a) :
    Option.Rel r (x.filter p) (x'.filter p') := by
  cases h with
  | none => exact .none
  | some related =>
    rw [Option.filter_some, Option.filter_some, same _ _ related]
    split
    · exact .some related
    · exact .none

theorem bind_members {β : Type} {x x' : Option ObjectType} {f f' : ObjectType → Option β}
    (same : x'.map members = x.map members) (agree : ∀ t t', t'.members = t.members → f' t' = f t) :
    x'.bind f' = x.bind f := by
  cases x with
  | none =>
    rw [Option.map_none, Option.map_eq_none_iff] at same
    rw [same, Option.bind_none, Option.bind_none]
  | some t =>
    rw [Option.map_some, Option.map_eq_some_iff] at same
    obtain ⟨t', rfl, same⟩ := same
    exact agree t t' same

theorem rel_isSome {α β : Type} {r : α → β → Prop} {x : Option α} {x' : Option β}
    (h : Option.Rel r x x') : x'.isSome = x.isSome := by
  cases h <;> rfl

namespace Access

variable {a a' : Access} (h : a.Folds a')
include h

theorem Folds.isRuntimeConstrained : a'.isRuntimeConstrained = a.isRuntimeConstrained := by
  rw [Access.isRuntimeConstrained, Access.isRuntimeConstrained, h.symbol,
    Symbol.isExistingResource_mapped, ObjectType.property?_members h.body]

theorem Folds.allowsProperty (name : String) :
    a'.allowsProperty (Name.key name) = a.allowsProperty name := by
  rw [Access.allowsProperty, Access.allowsProperty, Name.same_key_left,
    ObjectType.isReadable_members h.body, ObjectType.isReadable_key]

theorem Folds.inlines (name : String) :
    (a'.body.function? (Name.key name)).any (·.flags.requiresInlining) =
      (a.body.function? name).any (·.flags.requiresInlining) := by
  rw [ObjectType.function?_members h.body, ObjectType.function?_key]

end Access

namespace Model

variable {m m' : Model} (h : m.Folds m')
include h

theorem Folds.data? (node : NodeId) :
    m'.tree.arena.data? node = (m.tree.arena.data? node).map NodeData.folded := by
  rw [h.tree]
  exact m.tree.arena.data?_folded node

theorem Folds.target? (node : NodeId) : m'.target? node = m.target? node := by
  rw [Model.target?, Model.target?, h.tree]
  exact h.bound.target? m.tree.arena node

theorem Folds.access? (node : NodeId) :
    Option.Rel Access.Folds (m.access? node) (m'.access? node) := by
  rw [Model.access?, Model.access?, h.target?]
  cases m.target? node with
  | none => exact .none
  | some symbol =>
    have body := h.bodies symbol
    simp only [Option.bind_eq_bind, Option.bind_some, h.bound.symbol?]
    cases m.bound.symbol? symbol with
    | none => exact .none
    | some found =>
      cases known : m.body? symbol with
      | none =>
        rw [known, Option.map_none, Option.map_eq_none_iff] at body
        rw [body]
        exact .none
      | some type =>
        rw [known, Option.map_some, Option.map_eq_some_iff] at body
        obtain ⟨type', known', same⟩ := body
        rw [known']
        exact .some ⟨rfl, same⟩

theorem Folds.constrained? (node : NodeId) :
    Option.Rel Access.Folds (m.constrained? node) (m'.constrained? node) :=
  rel_filter (h.access? node) fun _ _ related => related.isRuntimeConstrained

theorem Folds.forbidsIndex {a a' : Access} (related : a.Folds a') (index : NodeId) :
    m'.forbidsIndex a' index = m.forbidsIndex a index := by
  rw [Model.forbidsIndex, Model.forbidsIndex, h.data?]
  cases m.tree.arena.data? index with
  | none => rfl
  | some data =>
    cases data with
    | string segments holes =>
      cases holes with
      | nil =>
        have text : (segments.map Name.key).head?.getD "" = Name.key (segments.head?.getD "") := by
          cases segments <;> rfl
        simp only [Option.map_some, NodeData.folded, text, related.allowsProperty]
      | cons hole rest => rfl
    | _ => rfl

theorem Folds.violation? (node : NodeId) :
    (m'.violation? node).isSome = (m.violation? node).isSome := by
  apply rel_isSome (r := Access.Folds)
  rw [Model.violation?, Model.violation?, h.data?]
  cases m.tree.arena.data? node with
  | none => exact .none
  | some data =>
    cases data with
    | property base name =>
      exact rel_filter (h.constrained? base) fun _ _ related =>
        congrArg Bool.not (related.allowsProperty name.name)
    | index base selector =>
      exact rel_filter (h.constrained? base) fun _ _ related => h.forbidsIndex related selector
    | instanceCall base name args =>
      exact rel_filter (h.constrained? base) fun _ _ related => related.inlines name.name
    | _ => exact .none

theorem Folds.check : m'.check.map Diagnostic.place = m.check.map Diagnostic.place := by
  have walk : m'.tree.arena.visit m'.tree.root = m.tree.arena.visit m.tree.root := by
    rw [h.tree]
    exact m.tree.arena.visit_folded m.tree.root
  have span : ∀ node, m'.tree.arena.span node = m.tree.arena.span node := by
    rw [h.tree]
    exact m.tree.arena.span_folded
  rw [Model.check, Model.check, walk, List.map_filterMap, List.map_filterMap]
  congr 1
  funext node
  have both := h.violation? node
  cases here : m.violation? node with
  | none =>
    rw [here, Option.isSome_none, Option.isSome_eq_false_iff, Option.isNone_iff_eq_none] at both
    rw [both]
    rfl
  | some a =>
    rw [here, Option.isSome_some, Option.isSome_iff_exists] at both
    obtain ⟨a', there⟩ := both
    rw [there]
    simp [Access.diagnostic, Diagnostic.atSpan, Diagnostic.place, span]

theorem Folds.diagnostics : (CompilationUnit.diagnostics m').map Diagnostic.place =
    (CompilationUnit.diagnostics m).map Diagnostic.place := by
  rw [CompilationUnit.diagnostics, CompilationUnit.diagnostics, places_start, places_start,
    List.map_append, List.map_append, h.places, h.check]

theorem Folds.reference? (node : NodeId) : m'.reference? node = m.reference? node := by
  rw [Model.reference?, Model.reference?, h.data?]
  cases m.tree.arena.data? node with
  | none => rfl
  | some data =>
    cases data with
    | ident _ | resourceAccess _ _ =>
      simp only [Option.map_some, Option.bind_eq_bind, Option.bind_some, NodeData.folded,
        h.bound.nameSymbol?, h.bound.symbol?]
      congr 1
      funext symbol
      cases m.bound.symbol? symbol <;> rfl
    | call name args =>
      have known : Builtin.find? name.folded.name = Builtin.find? name.name :=
        Builtin.find?_congr (Name.same_key name.name)
      simp only [Option.map_some, Option.bind_eq_bind, Option.bind_some, NodeData.folded, known]
    | instanceCall base name args =>
      simp only [Option.map_some, Option.bind_eq_bind, Option.bind_some, NodeData.folded, h.target?]
      congr 1
      funext symbol
      apply bind_members (h.bodies symbol)
      intro body body' same
      have found : body.function? name.folded.name = body.function? name.name :=
        body.function?_key name.name
      rw [ObjectType.function?_members same, found]
    | _ => rfl

theorem Folds.outline : m'.outline = m.outline := by
  have size : m'.bound.symbols.size = m.bound.symbols.size := by simp [h.bound.symbols]
  have existing : ∀ symbol, (m'.bound.symbol? symbol).any Symbol.isExistingResource =
      (m.bound.symbol? symbol).any Symbol.isExistingResource := by
    intro symbol
    rw [h.bound.symbol?]
    cases m.bound.symbol? symbol with
    | none => rfl
    | some found => exact found.isExistingResource_mapped _ _
  have readable : ∀ symbol, (m'.body? symbol).map (·.isReadable ObjectType.nameProperty) =
      (m.body? symbol).map (·.isReadable ObjectType.nameProperty) := by
    intro symbol
    rw [Option.map_eq_bind, Option.map_eq_bind]
    apply bind_members (h.bodies symbol)
    exact fun _ _ same => congrArg some (ObjectType.isReadable_members same _)
  have symbols : m'.bound.symbols.map Symbol.folded = m.bound.symbols.map Symbol.folded := by
    simp [h.bound.symbols, Function.comp_def, Symbol.folded_folded]
  rw [Model.outline, Model.outline, symbols, h.bound.names, h.bound.declarations,
    funext h.reference?, funext h.target?, size, h.diagnostics]
  simp only [existing, readable]

end Model

namespace CompilationUnit

theorem model_folded (u : CompilationUnit) (overrides : Option Catalog) :
    (u.folded.model overrides).map Model.outline = (u.model overrides).map Model.outline := by
  rw [model, model, folded, Tree.ofProgram_folded]
  cases lowered : Tree.ofProgram u.file u.program with
  | error e => rfl
  | ok tree =>
    obtain ⟨m, built⟩ := Model.build_total lowered (u.catalog overrides)
    obtain ⟨m', built', h⟩ := Model.build_folded (Tree.ofProgram_descends lowered) built
    have catalog : u.folded.catalog overrides = u.catalog overrides := rfl
    rw [folded] at catalog
    simp [Except.map, Except.mapError, bind, Except.bind, catalog, built, built', h.outline]

/-- Units that differ only in the case of the names that they use compile alike, and
the same rules are reported at the same places. -/
theorem compile_caseless {u u' : CompilationUnit} (same : u.folded = u'.folded)
    (overrides : Option Catalog) :
    (u.model overrides).map Model.outline = (u'.model overrides).map Model.outline ∧
      (u.compile overrides).map (fun c => c.diagnostics.map Diagnostic.place) =
        (u'.compile overrides).map fun c => c.diagnostics.map Diagnostic.place := by
  have outlines : (u.model overrides).map Model.outline = (u'.model overrides).map Model.outline := by
    rw [← model_folded, same, model_folded]
  have places : ∀ u : CompilationUnit,
      (u.compile overrides).map (fun c => c.diagnostics.map Diagnostic.place) =
        ((u.model overrides).map Model.outline).map Outline.reports := by
    intro u
    rw [compile_model]
    cases u.model overrides <;> rfl
  refine ⟨outlines, ?_⟩
  rw [places, places, outlines]

def account (spell : String → String) : CompilationUnit :=
  ⟨"main.json", none, [],
    [.resource "store" (spell "Microsoft.Storage/storageAccounts@2021-04-01") true
        (.object [(spell "Name", .call (spell "Reference") [.int 1 none] none)] none) [] none,
      .var "kind" (.property (.ident (spell "Store") none) (spell "Kind") none) none,
      .var "sku" (.index (.ident (spell "Store") none)
        (.string (some (spell "Sku")) [] none) none) none,
      .output "keys" (.instanceCall (.ident (spell "Store") none) (spell "ListKeys") [] none) none]⟩

theorem compile_caseless_account :
    (account id).folded = (account Name.key).folded ∧
      ((account id).compile none).map (fun c => c.diagnostics.map Diagnostic.place) =
        ((account Name.key).compile none).map (fun c => c.diagnostics.map Diagnostic.place) ∧
      ((account id).model none).toOption.map (fun m => m.check.map Diagnostic.code) =
        some [307, 307, 307] := by
  have same : (account id).folded = (account Name.key).folded := by
    simp [account, folded, Declaration.allFolded, Declaration.folded, Expression.folded,
      Expression.allFolded, Expression.propertiesFolded, Part.allFolded, Name.key_key]
  exact ⟨same, (compile_caseless same none).2, by decide +kernel⟩

end CompilationUnit

end DeployCheck
