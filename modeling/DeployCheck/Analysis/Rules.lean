import DeployCheck.Binding.Target
import DeployCheck.Types.Builtin
import DeployCheck.Types.Catalog

/-!
# What is known before the deployment

Whether an expression is constant depends on its parts and on the bodies of the
resources that it reads; the body of an existing resource depends on whether the
expressions that identify it are constant. The rules here make one step: they
are given an answer for the parts, and a way to ask for bodies.
-/

set_option autoImplicit false

namespace DeployCheck.Analysis

structure Subject where
  tree : Tree
  bound : Bound
  catalog : Catalog

variable {m : Type → Type} [Monad m] (s : Subject)

def Subject.target? (id : NodeId) : Option SymbolId := s.bound.target? s.tree.arena id

/-- Whether a property of a target is readable before the deployment. -/
def readable (body : SymbolId → m (Option ObjectType)) (target : SymbolId) (name : String) :
    m Bool := do
  match ← body target with
  | some type => return type.isReadable name
  | none => return false

def nameIsConstant (constant : NodeId → m Bool) (id : NodeId) : m Bool :=
  match (s.bound.nameSymbol? id).bind s.bound.symbol? with
  | none => return false
  | some symbol => match symbol.kind with
    | .param | .loopIndex _ => return true
    | .var => match s.tree.arena.data? symbol.declaration with
      | some (.var _ value) => constant value
      | _ => return false
    | .loopItem loop => match s.tree.arena.data? loop with
      | some (.loop _ _ iterated _) => constant iterated
      | _ => return false
    | _ => return false

/-- Whether an expression can be evaluated before any resource is deployed. A
member of a resource or module is constant exactly if it is readable. -/
def expressionIsConstant (constant : NodeId → m Bool)
    (body : SymbolId → m (Option ObjectType)) (id : NodeId) : m Bool :=
  match s.tree.arena.data? id with
  | some data => match data with
    | .int _ | .bool _ | .null => return true
    | .string _ holes => holes.allM constant
    | .array items => items.allM constant
    | .object entries => (entries.map ObjectEntry.value).allM constant
    | .ident _ => nameIsConstant s constant id
    | .property base name => match s.target? base with
      | some target => readable body target name.name
      | none => constant base
    | .index base index => match s.target? base with
      | some target => match (s.tree.arena.data? index).bind NodeData.literal? with
        | some name => readable body target name
        | none => return false
      | none => [base, index].allM constant
    | .call name args => match Builtin.find? name.name with
      | some f => if f.flags.requiresInlining then return false else args.allM constant
      | none => return false
    | .paren inner => constant inner
    | .unary _ operand => constant operand
    | .binary _ left right => [left, right].allM constant
    | .ternary c t f => [c, t, f].allM constant
    | _ => return false
  | none => return false

/-- The properties of a declaration's body, under its loops and conditions. -/
def bodyEntries? (arena : Arena) : Nat → NodeId → Option (List ObjectEntry)
  | 0, _ => none
  | depth + 1, id => match arena.data? id with
    | some (.object entries) => some entries
    | some (.loop _ _ _ body) => bodyEntries? arena depth body
    | some (.condition _ body) => bodyEntries? arena depth body
    | _ => none

def keyed? (entries : List ObjectEntry) (name : String) : Option NodeId :=
  (entries.find? fun e => Name.same e.key.name name).map ObjectEntry.value

def scopeProperty : String := "scope"

def parentProperty : String := "parent"

def declaredEntries? (symbol : Symbol) : Option (List ObjectEntry) :=
  match s.tree.arena.data? symbol.declaration with
  | some (.resource _ _ _ body _) => bodyEntries? s.tree.arena (s.tree.arena.size + 1) body
  | _ => none

def absentOrConstant (constant : NodeId → m Bool) : Option NodeId → m Bool
  | some value => constant value
  | none => return true

/-- Whether the name of a resource, its scope and its parent are known before
the deployment. Those of a module's output never are. -/
def identityIsConstant (constant : NodeId → m Bool) (body : SymbolId → m (Option ObjectType))
    (symbol : Symbol) : m Bool := do
  if symbol.module?.isSome then return false
  match declaredEntries? s symbol with
  | none => return false
  | some entries => match keyed? entries ObjectType.nameProperty with
    | none => return false
    | some name =>
      if !(← constant name) then return false
      if !(← absentOrConstant constant (keyed? entries scopeProperty)) then return false
      let parent := ((keyed? entries parentProperty).bind s.target?).or symbol.parent?
      match parent with
      | some parent => readable body parent ObjectType.nameProperty
      | none => return true

def typeSpan (symbol : Symbol) : Span :=
  match s.tree.arena.data? symbol.declaration with
  | some (.resource name _ _ _ _) => name.span
  | some (.module _ _ _ outputs) =>
    match outputs.find? fun o => o.name.name == symbol.name with
    | some o => o.name.span
    | none => s.tree.arena.span symbol.declaration
  | _ => s.tree.arena.span symbol.declaration

def untyped (symbol : Symbol) (type : TypeReference) : Diagnostic :=
  .ofRule s.tree.file (typeSpan s symbol) .untypedResource [type.text]

def markName (body : ObjectType) (readable : Bool) : ObjectType :=
  body.updateFlags ObjectType.nameProperty fun flags => flags.setReadable readable

end DeployCheck.Analysis
