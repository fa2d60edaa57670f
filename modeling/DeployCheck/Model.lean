import DeployCheck.Analysis.Bodies
import DeployCheck.Binding.Bind

/-!
# Models

The model of a program holds its symbols, the bodies of its resources and
modules, and the diagnostics of both.
-/

set_option autoImplicit false

namespace DeployCheck

structure Model where
  tree : Tree
  bound : Bound
  bodies : Array (Option ObjectType)
  diagnostics : List Diagnostic

/-- Diagnostics at one offset are listed by their codes. -/
def Diagnostic.before (a b : Diagnostic) : Bool :=
  a.start < b.start || (a.start == b.start && a.code ≤ b.code)

inductive Reference where
  | declared (symbol : SymbolId)
  | function (function : FunctionType)

structure Access where
  id : SymbolId
  symbol : Symbol
  body : ObjectType

namespace Model

def build (tree : Tree) (catalog : Catalog) : Except ModelError Model := do
  let bound ← Bound.ofTree tree
  let memo := Analysis.run ⟨tree, bound, catalog⟩
  let diagnostics := bound.diagnostics.toList ++ memo.diagnostics.toList
  return ⟨tree, bound, memo.bodies, diagnostics.mergeSort Diagnostic.before⟩

theorem build_eq_ok_iff {tree : Tree} {catalog : Catalog} {m : Model} :
    build tree catalog = .ok m ↔ ∃ bound, Bound.ofTree tree = .ok bound ∧
      ⟨tree, bound, (Analysis.run ⟨tree, bound, catalog⟩).bodies,
        (bound.diagnostics.toList ++
          (Analysis.run ⟨tree, bound, catalog⟩).diagnostics.toList).mergeSort
            Diagnostic.before⟩ = m := by
  rw [build]
  cases Bound.ofTree tree <;> simp [bind, Except.bind, pure, Except.pure]

def body? (m : Model) (id : SymbolId) : Option ObjectType := m.bodies[id]?.join

def target? (m : Model) (id : NodeId) : Option SymbolId := m.bound.target? m.tree.arena id

def reference? (m : Model) (id : NodeId) : Option Reference := do
  match ← m.tree.arena.data? id with
  | .ident _ | .resourceAccess .. =>
    let symbol ← m.bound.nameSymbol? id
    discard (m.bound.symbol? symbol)
    return .declared symbol
  | .call name _ => return .function (← Builtin.find? name.name)
  | .instanceCall base name _ =>
    let body ← m.body? (← m.target? base)
    return .function (← body.function? name.name)
  | _ => none

def access? (m : Model) (id : NodeId) : Option Access := do
  let symbolId ← m.target? id
  let symbol ← m.bound.symbol? symbolId
  let body ← m.body? symbolId
  return ⟨symbolId, symbol, body⟩

end Model

namespace Access

/-- An existing resource whose name cannot be computed before the deployment. -/
def isRuntimeConstrained (a : Access) : Bool :=
  a.symbol.isExistingResource &&
    (a.body.property? ObjectType.nameProperty).any fun p => !p.flags.isReadable

/-- The properties that are readable before the deployment, in the order of the
body, and the name last. -/
def properties (a : Access) : List String :=
  (a.body.properties.entries.filter fun p =>
      p.flags.isReadable && !Name.same p.name ObjectType.nameProperty).map Property.name
    ++ [ObjectType.nameProperty]

def functions (a : Access) : List String :=
  (a.body.functions.entries.filter fun f => !f.flags.requiresInlining).map FunctionType.name

end Access

end DeployCheck
