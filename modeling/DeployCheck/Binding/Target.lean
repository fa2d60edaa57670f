import DeployCheck.Binding.Bound
import DeployCheck.Types.ObjectType

/-!
# Targets

The resource or module that an expression denotes: a name that is bound to one,
an element of a collection, a resource that a module returns, or any of these in
parentheses.
-/

set_option autoImplicit false

namespace DeployCheck

/-- The number of steps that are followed from an expression to its target. -/
def targetLimit : Nat := 64

namespace Bound

/-- The symbol of a name, if it is a resource or module of the right sort. -/
def declared? (b : Bound) (collection : Bool) (node : NodeId) : Option SymbolId := do
  let id ← b.nameSymbol? node
  let symbol ← b.symbol? id
  guard (symbol.isResourceOrModule && symbol.isCollection == collection)
  return id

/-- The resource behind an output of the module that the base of a node denotes;
the node must read the property `outputs`. -/
def outputTarget? (b : Bound) (arena : Arena) (target : NodeId → Option SymbolId) (outputs : NodeId)
    (name : String) : Option SymbolId := do
  match ← arena.data? outputs with
  | .property base property => do
    guard (Name.same property.name ObjectType.outputsProperty)
    let id ← target base
    let symbol ← b.symbol? id
    guard symbol.isModule
    b.moduleOutput? id name
  | _ => none

def elementTarget? (b : Bound) (arena : Arena) (base : NodeId) : Option SymbolId := do
  match ← arena.data? base with
  | .ident _ | .resourceAccess .. => b.declared? true base
  | _ => none

def targetWithin (b : Bound) (arena : Arena) : Nat → NodeId → Option SymbolId
  | 0, _ => none
  | steps + 1, id => do
    match ← arena.data? id with
    | .paren inner => b.targetWithin arena steps inner
    | .ident _ | .resourceAccess .. => b.declared? false id
    | .property base name => b.outputTarget? arena (b.targetWithin arena steps) base name.name
    | .index base index =>
      let output := ((arena.data? index).bind NodeData.literal?).bind
        (b.outputTarget? arena (b.targetWithin arena steps) base)
      output.or (b.elementTarget? arena base)
    | _ => none

def target? (b : Bound) (arena : Arena) (id : NodeId) : Option SymbolId :=
  b.targetWithin arena targetLimit id

end Bound

end DeployCheck
