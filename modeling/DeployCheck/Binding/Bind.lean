import DeployCheck.Binding.Bound
import DeployCheck.Types.Builtin

/-!
# Binding names

All declarations are made before any name is looked up, so a name may stand
before its declaration. A name is looked up from the inside to the outside: in
the loops and resources around it, then among the declarations of the program.
-/

set_option autoImplicit false

namespace DeployCheck

inductive ModelError where
  | rootNotProgram (root : NodeId) (found : String)
  | danglingNode (node : NodeId)
  | declarationInExpression (node : NodeId) (kind : String)
  | expressionInDeclaration (node : NodeId) (kind : String)
  deriving DecidableEq

namespace ModelError

def nodeText (node : NodeId) : String := "NodeIndex(" ++ toString node ++ ")"

def message : ModelError → String
  | rootNotProgram root found =>
    "syntax tree root " ++ nodeText root ++ " is a `" ++ found ++ "` node, expected `program`"
  | danglingNode node =>
    "node " ++ nodeText node ++ " is referenced but not allocated in the arena"
  | declarationInExpression node kind =>
    "`" ++ kind ++ "` declaration " ++ nodeText node ++ " appears in expression position"
  | expressionInDeclaration node kind =>
    "`" ++ kind ++ "` node " ++ nodeText node ++ " appears in declaration position"

end ModelError

abbrev Binder := StateT Bound (Except ModelError)

namespace Binder

/-- A scope around a name: the declarations nested in a resource, or the
variables of a loop. -/
inductive Frame where
  | nested (resource : SymbolId)
  | locals (entries : List (String × SymbolId))

def nodeAt (tree : Tree) (id : NodeId) : Binder NodeData :=
  match tree.arena.data? id with
  | some data => return data
  | none => throw (.danglingNode id)

def report (tree : Tree) (name : Identifier) (rule : Rule) : Binder Unit :=
  modify fun b =>
    { b with diagnostics := b.diagnostics.push (.ofRule tree.file name.span rule [name.name]) }

def addSymbol (s : Symbol) : Binder SymbolId :=
  modifyGet fun b => (b.symbols.size, { b with symbols := b.symbols.push s })

/-- Bring a name into the scope of an owner. A name that is there already is
reported, and keeps its first meaning. -/
def introduce (tree : Tree) (owner : Owner) (name : Identifier) (declaration : NodeId)
    (kind : SymbolKind) : Binder SymbolId := do
  let known := ((← get).member? owner name.name).isSome
  let id ← addSymbol ⟨name.name, declaration, owner, kind⟩
  if known then report tree name .duplicateName
  return id

def bindName (node : NodeId) (id : SymbolId) : Binder Unit :=
  modify fun b => { b with names := b.names.setIfInBounds node (some id) }

def bindDeclared (node : NodeId) (id : SymbolId) : Binder Unit :=
  modify fun b => { b with declarations := b.declarations.setIfInBounds node (some id) }

def isCollection (tree : Tree) (body : NodeId) : Binder Bool := do
  return (← nodeAt tree body).isLoop

def typeOf (text : String) (parent : Option SymbolId) : Binder TypeReference := do
  let b ← get
  return .ofText text (parent.bind b.symbol? |>.bind Symbol.type?)

def declaredKind (tree : Tree) (parent : Option SymbolId) (id : NodeId) :
    NodeData → Binder (Identifier × SymbolKind)
  | .param name _ => return (name, .param)
  | .var name _ => return (name, .var)
  | .output name _ => return (name, .output)
  | .module name path body _ => do
    return (name, .module path (← isCollection tree body))
  | .resource name type existing body _ => do
    let collection ← isCollection tree body
    return (name, .resource (← typeOf type parent) existing collection)
  | data => throw (.expressionInDeclaration id data.kindName)

def ownerOf (parent : Option SymbolId) (kind : SymbolKind) : Owner :=
  match parent, kind with
  | some parent, _ => .resource parent
  | none, .output => .outputs
  | none, _ => .program

/-- The outputs of a module that are resources are existing resources. -/
def declareOutputs (tree : Tree) (declaration : NodeId) (module : SymbolId) :
    List OutputSignature → Binder Unit
  | [] => return
  | o :: rest => do
    if let some type := o.resource then
      let reference ← typeOf type none
      discard <| introduce tree (.module module) o.name declaration (.resource reference true false)
    declareOutputs tree declaration module rest

/-- Declare a declaration, then those inside of it. The fuel bounds how deep
declarations are nested. -/
def declare (tree : Tree) : Nat → Option SymbolId → NodeId → Binder Unit
  | 0, _, _ => return
  | fuel + 1, parent, id => do
    let data ← nodeAt tree id
    let (name, kind) ← declaredKind tree parent id data
    let symbol ← introduce tree (ownerOf parent kind) name id kind
    bindDeclared id symbol
    match data with
    | .resource _ _ _ _ nested => nested.forM (declare tree fuel (some symbol))
    | .module _ _ _ outputs => declareOutputs tree id symbol outputs
    | _ => return

def Frame.lookup (b : Bound) (name : String) : Frame → Option SymbolId
  | .nested resource => b.child? resource name
  | .locals entries => (entries.find? fun entry => Name.same entry.1 name).map Prod.snd

def lookup (b : Bound) (around : List Frame) (name : String) : Option SymbolId :=
  (around.findSome? (Frame.lookup b name)).or (b.global? name)

def bindOrReport (tree : Tree) (node : NodeId) (name : Identifier) (symbol : Option SymbolId) :
    Binder Unit :=
  match symbol with
  | some id => bindName node id
  | none => report tree name .unknownName

/-- Make the variables of a loop. An index of the same name hides the item. -/
def loopFrame (loop : NodeId) (item : Identifier) (index : Option Identifier) :
    Binder Frame := do
  let itemId ← addSymbol ⟨item.name, loop, .loop loop, .loopItem loop⟩
  match index with
  | none => return .locals [(item.name, itemId)]
  | some index => do
    let indexId ← addSymbol ⟨index.name, loop, .loop loop, .loopIndex loop⟩
    return .locals [(index.name, indexId), (item.name, itemId)]

def bindExpression (tree : Tree) : Nat → List Frame → NodeId → Binder Unit
  | 0, _, _ => return
  | fuel + 1, around, id => do
    let data ← nodeAt tree id
    if data.isDeclaration then throw (.declarationInExpression id data.kindName)
    match data with
    | .ident name => do
      bindOrReport tree id name (lookup (← get) around name.name)
    | .resourceAccess base name => do
      bindExpression tree fuel around base
      let b ← get
      bindOrReport tree id name ((b.nameSymbol? base).bind (b.child? · name.name))
    | .loop item index iterated body => do
      bindExpression tree fuel around iterated
      let frame ← loopFrame id item index
      bindExpression tree fuel (frame :: around) body
    | .call name args => do
      if (Builtin.find? name.name).isNone then report tree name .unknownName
      args.forM (bindExpression tree fuel around)
    | data => data.children.forM (bindExpression tree fuel around)

def bindDeclaration (tree : Tree) : Nat → List Frame → NodeId → Binder Unit
  | 0, _, _ => return
  | fuel + 1, around, id => do
    let data ← nodeAt tree id
    match data with
    | .resource _ _ _ body nested => do
      let frames := match (← get).declarationSymbol? id with
        | some symbol => .nested symbol :: around
        | none => around
      bindExpression tree (fuel + 1) frames body
      nested.forM (bindDeclaration tree fuel frames)
    | .param .. | .var .. | .output .. | .module .. =>
      data.children.forM (bindExpression tree (fuel + 1) around)
    | data => throw (.expressionInDeclaration id data.kindName)

def program (tree : Tree) (declarations : List NodeId) : Binder Unit := do
  let fuel := tree.arena.size + 1
  declarations.forM (declare tree fuel none)
  declarations.forM (bindDeclaration tree fuel [])

end Binder

def Bound.ofTree (tree : Tree) : Except ModelError Bound :=
  match tree.arena.data? tree.root with
  | none => .error (.danglingNode tree.root)
  | some (.program declarations) =>
    ((Binder.program tree declarations).run (.start tree.arena.size)).map Prod.snd
  | some data => .error (.rootNotProgram tree.root data.kindName)

end DeployCheck
