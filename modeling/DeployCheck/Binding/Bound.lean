import DeployCheck.Binding.Symbol
import DeployCheck.Diagnostic
import DeployCheck.Tree.Arena

/-!
# Bound programs

The symbols of a program, and the symbol of every name in it. In a scope the
first symbol of a name is the one that counts.
-/

set_option autoImplicit false

namespace DeployCheck

structure Bound where
  symbols : Array Symbol
  names : Array (Option SymbolId)
  declarations : Array (Option SymbolId)
  diagnostics : Array Diagnostic

namespace Bound

def start (size : Nat) : Bound where
  symbols := #[]
  names := .replicate size none
  declarations := .replicate size none
  diagnostics := #[]

def symbol? (b : Bound) (id : SymbolId) : Option Symbol := b.symbols[id]?

def nameSymbol? (b : Bound) (node : NodeId) : Option SymbolId := b.names[node]?.join

def declarationSymbol? (b : Bound) (node : NodeId) : Option SymbolId := b.declarations[node]?.join

/-- The first symbol of a name in the scope of an owner. -/
def member? (b : Bound) (owner : Owner) (name : String) : Option SymbolId :=
  b.symbols.findIdx? fun s => s.owner == owner && Name.same s.name name

def global? (b : Bound) (name : String) : Option SymbolId := b.member? .program name

def output? (b : Bound) (name : String) : Option SymbolId := b.member? .outputs name

def child? (b : Bound) (parent : SymbolId) (name : String) : Option SymbolId :=
  b.member? (.resource parent) name

/-- The resource that a module returns as an output. -/
def moduleOutput? (b : Bound) (module : SymbolId) (name : String) : Option SymbolId :=
  b.member? (.module module) name

theorem member?_congr (b : Bound) (owner : Owner) {name other : String}
    (h : Name.same name other = true) : b.member? owner name = b.member? owner other := by
  rw [Name.same_iff] at h
  simp only [member?, Name.same, h]

end Bound

end DeployCheck
