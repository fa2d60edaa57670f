import DeployCheck.Analysis.Rules

/-!
# Bodies of resources and modules

The rules are applied with tables of what is known already. Something that is
being worked out counts as not constant when it is asked for again, and so does
an expression that is reached over too many others; neither is put into the
tables for that, but what was worked out from it is.
-/

set_option autoImplicit false

namespace DeployCheck.Analysis

def depthLimit : Nat := 256

structure Memo where
  constants : Array (Option Bool)
  bodies : Array (Option ObjectType)
  diagnostics : Array Diagnostic

namespace Memo

def start (s : Subject) : Memo where
  constants := .replicate s.tree.arena.size none
  bodies := .replicate s.bound.symbols.size none
  diagnostics := #[]

def constant? (memo : Memo) (id : NodeId) : Option Bool := memo.constants[id]?.join

def body? (memo : Memo) (id : SymbolId) : Option ObjectType := memo.bodies[id]?.join

def setConstant (memo : Memo) (id : NodeId) (constant : Bool) : Memo :=
  { memo with constants := memo.constants.setIfInBounds id (some constant) }

def setBody (memo : Memo) (id : SymbolId) (body : ObjectType) : Memo :=
  { memo with bodies := memo.bodies.setIfInBounds id (some body) }

def report (memo : Memo) (d : Diagnostic) : Memo :=
  { memo with diagnostics := memo.diagnostics.push d }

end Memo

structure Path where
  nodes : List NodeId
  symbols : List SymbolId

section Steps

variable {n : Type → Type} [Monad n] (s : Subject)

/-- The body of a resource: that of its type, with the name's flag of its own if
the resource exists already. -/
def resourceBody (constant : NodeId → StateT Memo n Bool)
    (body : SymbolId → StateT Memo n (Option ObjectType)) (symbol : Symbol) (type : TypeReference)
    (existing : Bool) : StateT Memo n ObjectType := do
  let known := s.catalog.lookup type
  if known.isNone then modify (·.report (untyped s symbol type))
  let declared := known.getD (.generic type)
  if !existing then return declared
  return markName declared (← identityIsConstant s constant body symbol)

variable (limit : StateT Memo n Bool) (constant : Path → NodeId → StateT Memo n Bool)
  (body : Path → SymbolId → StateT Memo n (Option ObjectType))

/-- Whether an expression is constant. One that is reached over too many others has the
answer of `limit`. -/
def constantStep (path : Path) (id : NodeId) : StateT Memo n Bool := do
  match (← get).constant? id with
  | some known => return known
  | none =>
    if path.nodes.contains id then return false
    if depthLimit ≤ path.nodes.length then limit
    else
      let path := { path with nodes := id :: path.nodes }
      let result ← expressionIsConstant s (constant path) (body path) id
      modify (·.setConstant id result)
      return result

/-- The body of a resource or module, unless it is being worked out. -/
def bodyStep (path : Path) (id : SymbolId) : StateT Memo n (Option ObjectType) := do
  match (← get).body? id with
  | some known => return some known
  | none =>
    if path.symbols.contains id then return none
    match s.bound.symbol? id with
    | none => return none
    | some symbol => match symbol.kind with
      | .resource type existing _ => do
        let path := { path with symbols := id :: path.symbols }
        let type ← resourceBody s (constant path) (body path) symbol type existing
        modify (·.setBody id type)
        return some type
      | .module modulePath _ => do
        let type := ObjectType.ofModule modulePath
        modify (·.setBody id type)
        return some type
      | _ => return none

mutual

def constantUpTo : Nat → Path → NodeId → StateT Memo n Bool
  | 0, _, _ => return false
  | fuel + 1, path, id => constantStep s limit (constantUpTo fuel) (bodyUpTo fuel) path id

def bodyUpTo : Nat → Path → SymbolId → StateT Memo n (Option ObjectType)
  | 0, _, _ => return none
  | fuel + 1, path, id => bodyStep s (constantUpTo fuel) (bodyUpTo fuel) path id

end

end Steps

abbrev Work := StateM Memo

def constantWithin (s : Subject) : Nat → Path → NodeId → Work Bool := constantUpTo s (return false)

def bodyWithin (s : Subject) : Nat → Path → SymbolId → Work (Option ObjectType) :=
  bodyUpTo s (return false)

theorem constantWithin_succ (s : Subject) (fuel : Nat) (path : Path) (id : NodeId) :
    constantWithin s (fuel + 1) path id =
      constantStep s (return false) (constantWithin s fuel) (bodyWithin s fuel) path id := rfl

theorem bodyWithin_succ (s : Subject) (fuel : Nat) (path : Path) (id : SymbolId) :
    bodyWithin s (fuel + 1) path id =
      bodyStep s (constantWithin s fuel) (bodyWithin s fuel) path id := rfl

/-- Enough for every path: one for each expression and each symbol on it. -/
def enoughFuel (s : Subject) : Nat := depthLimit + s.bound.symbols.size + 2

def constant (s : Subject) (id : NodeId) : Work Bool :=
  constantWithin s (enoughFuel s) ⟨[], []⟩ id

def body (s : Subject) (id : SymbolId) : Work (Option ObjectType) :=
  bodyWithin s (enoughFuel s) ⟨[], []⟩ id

def bodied (s : Subject) : List SymbolId :=
  (List.range s.bound.symbols.size).filter fun id =>
    (s.bound.symbol? id).any Symbol.isResourceOrModule

/-- Work out the bodies of all resources and modules, in the order of their
symbols. -/
def run (s : Subject) : Memo :=
  ((bodied s).forM fun id => discard (body s id)).run (.start s) |>.2

end DeployCheck.Analysis
