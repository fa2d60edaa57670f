import DeployCheck.Tree.Node
import DeployCheck.Types.Reference

/-!
# Symbols

Every declaration, every loop variable and every output of a module that is a
resource has a symbol. A symbol belongs to the scope of its owner.
-/

set_option autoImplicit false

namespace DeployCheck

abbrev SymbolId := Nat

/-- The owners of scopes. Outputs of the program have a scope of their own. -/
inductive Owner where
  | program
  | outputs
  | resource (id : SymbolId)
  | module (id : SymbolId)
  | loop (node : NodeId)
  deriving DecidableEq

/-- What a symbol stands for. The symbols of a loop know its node. -/
inductive SymbolKind where
  | param
  | var
  | output
  | loopItem (loop : NodeId)
  | loopIndex (loop : NodeId)
  | resource (type : TypeReference) (existing collection : Bool)
  | module (path : String) (collection : Bool)
  deriving DecidableEq

structure Symbol where
  name : String
  declaration : NodeId
  owner : Owner
  kind : SymbolKind
  deriving DecidableEq

namespace Symbol

def isResourceOrModule (s : Symbol) : Bool :=
  match s.kind with
  | .resource .. | .module .. => true
  | _ => false

def isModule (s : Symbol) : Bool :=
  match s.kind with
  | .module .. => true
  | _ => false

def isExistingResource (s : Symbol) : Bool :=
  match s.kind with
  | .resource _ existing _ => existing
  | _ => false

theorem isExistingResource_iff {s : Symbol} : s.isExistingResource = true ↔
    ∃ type collection, s.kind = .resource type true collection := by
  rw [isExistingResource]
  cases s.kind with
  | resource type existing collection => simp
  | _ => simp

def isCollection (s : Symbol) : Bool :=
  match s.kind with
  | .resource _ _ collection | .module _ collection => collection
  | _ => false

def type? (s : Symbol) : Option TypeReference :=
  match s.kind with
  | .resource type _ _ => some type
  | _ => none

def parent? (s : Symbol) : Option SymbolId :=
  match s.owner with
  | .resource id => some id
  | _ => none

/-- The module that returns a resource. -/
def module? (s : Symbol) : Option SymbolId :=
  match s.owner with
  | .module id => some id
  | _ => none

def kindName (s : Symbol) : String :=
  match s.kind with
  | .param => "param"
  | .var => "var"
  | .output => "output"
  | .loopItem _ | .loopIndex _ => "local"
  | .resource .. => "resource"
  | .module .. => "module"

end Symbol

end DeployCheck
