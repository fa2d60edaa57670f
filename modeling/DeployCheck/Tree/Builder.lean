import DeployCheck.Tree.Arena

/-!
# Building trees

A builder adds nodes to an arena and makes up spans for them. Leaves, names and
punctuation get spans of their own, one behind the other; other nodes cover
their children.
-/

set_option autoImplicit false

namespace DeployCheck

/-- The nodes so far, and the offset where the next span starts. -/
structure Builder where
  arena : Arena
  cursor : Nat

abbrev Build := StateM Builder

namespace Build

def start : Builder := ⟨.empty, 0⟩

def add (span : Span) (data : NodeData) : Build NodeId :=
  modifyGet fun b => (b.arena.size, { b with arena := b.arena.add span data })

/-- The width of a leaf is at least one. A width that is no offset counts as half of the
offsets. -/
def leafWidth (width : Nat) : Nat :=
  if max width 1 ≤ lastOffset then max width 1 else lastOffset / 2

def leaf (width : Nat) : Build Span :=
  modifyGet fun b =>
    let span := Span.between b.cursor (b.cursor + leafWidth width)
    (span, { b with cursor := min (span.stop + 1) lastOffset })

def spanOf (id : NodeId) : Build Span := do
  return (← get).arena.span id

def cover (ids : List NodeId) (span : Span) : Build Span := do
  let arena := (← get).arena
  return ids.foldl (fun s id => s.cover (arena.span id)) span

/-- Give a node a span of the source. Later spans start behind it. -/
def setSpan (id : NodeId) (span : Span) : Build Unit :=
  modify fun b =>
    { arena := b.arena.setSpan id span, cursor := max b.cursor (min (span.stop + 1) lastOffset) }

def identifier (name : String) : Build Identifier := do
  return ⟨name, ← leaf name.utf8ByteSize⟩

def identifiers : List String → Build (List Identifier)
  | [] => return []
  | name :: rest => do
    let id ← identifier name
    return id :: (← identifiers rest)

def string (value : String) : Build NodeId := do
  let span ← leaf (value.utf8ByteSize + 2)
  add span (.string [value] [])

/-- A string with holes. Missing segments at the end are empty. -/
def interpolated (segments : List String) (holes : List NodeId) : Build NodeId := do
  let opening ← leaf 1
  let closing ← leaf 1
  let span ← cover holes opening
  let missing := holes.length + 1 - segments.length
  add (span.cover closing) (.string (segments ++ List.replicate missing "") holes)

def int (value : Int) : Build NodeId := do
  let span ← leaf (toString value).utf8ByteSize
  add span (.int value)

def bool (value : Bool) : Build NodeId := do
  let span ← leaf (if value then 4 else 5)
  add span (.bool value)

def null : Build NodeId := do
  let span ← leaf 4
  add span .null

def ident (name : String) : Build NodeId := do
  let name ← identifier name
  add name.span (.ident name)

def array (items : List NodeId) : Build NodeId := do
  let opening ← leaf 1
  let closing ← leaf 1
  let span ← cover items opening
  add (span.cover closing) (.array items)

def object (properties : List (String × NodeId)) : Build NodeId := do
  let opening ← leaf 1
  let keys ← identifiers (properties.map Prod.fst)
  let closing ← leaf 1
  let span ← cover (properties.map Prod.snd) opening
  add (span.cover closing) (.object (keys.zipWith ObjectEntry.mk (properties.map Prod.snd)))

def property (base : NodeId) (name : String) : Build NodeId := do
  let name ← identifier name
  let span ← cover [base] name.span
  add span (.property base name)

def index (base index : NodeId) : Build NodeId := do
  let closing ← leaf 1
  let span ← cover [base, index] closing
  add span (.index base index)

def resourceAccess (base : NodeId) (name : String) : Build NodeId := do
  let name ← identifier name
  let span ← cover [base] name.span
  add span (.resourceAccess base name)

def call (name : String) (args : List NodeId) : Build NodeId := do
  let name ← identifier name
  let closing ← leaf 1
  let span ← cover args name.span
  add (span.cover closing) (.call name args)

def instanceCall (base : NodeId) (name : String) (args : List NodeId) : Build NodeId := do
  let name ← identifier name
  let closing ← leaf 1
  let span ← cover (base :: args) name.span
  add (span.cover closing) (.instanceCall base name args)

def paren (inner : NodeId) : Build NodeId := do
  let closing ← leaf 1
  let span ← cover [inner] closing
  add span (.paren inner)

def unary (operator : UnaryOperator) (operand : NodeId) : Build NodeId := do
  add (← spanOf operand) (.unary operator operand)

def binary (operator : BinaryOperator) (left right : NodeId) : Build NodeId := do
  let span ← cover [right] (← spanOf left)
  add span (.binary operator left right)

def ternary (condition whenTrue whenFalse : NodeId) : Build NodeId := do
  let span ← cover [whenTrue, whenFalse] (← spanOf condition)
  add span (.ternary condition whenTrue whenFalse)

def loop (item : String) (index : Option String) (iterated body : NodeId) : Build NodeId := do
  let keyword ← leaf 3
  let item ← identifier item
  let index ← index.mapM identifier
  let closing ← leaf 1
  let span ← cover [iterated, body] keyword
  add (span.cover closing) (.loop item index iterated body)

def condition (condition body : NodeId) : Build NodeId := do
  let keyword ← leaf 2
  let span ← cover [condition, body] keyword
  add span (.condition condition body)

def declared (keyword name : String) : Build (Span × Identifier) := do
  let keyword ← leaf keyword.utf8ByteSize
  let name ← identifier name
  return (keyword.cover name.span, name)

def param (name : String) (default : Option NodeId) : Build NodeId := do
  let (head, name) ← declared "param" name
  let span ← cover default.toList head
  add span (.param name default)

def var (name : String) (value : NodeId) : Build NodeId := do
  let (head, name) ← declared "var" name
  let span ← cover [value] head
  add span (.var name value)

def resource (name type : String) (existing : Bool) (body : NodeId) (nested : List NodeId) :
    Build NodeId := do
  let (head, name) ← declared "resource" name
  let span ← cover (body :: nested) head
  add span (.resource name type existing body nested)

def module (name path : String) (body : NodeId) (outputs : List (String × Option String)) :
    Build NodeId := do
  let (head, name) ← declared "module" name
  let names ← identifiers (outputs.map Prod.fst)
  let span ← cover [body] head
  add span (.module name path body (names.zipWith OutputSignature.mk (outputs.map Prod.snd)))

def output (name : String) (value : NodeId) : Build NodeId := do
  let (head, name) ← declared "output" name
  let span ← cover [value] head
  add span (.output name value)

def program (declarations : List NodeId) : Build NodeId := do
  let span ← cover declarations (.point 0)
  add span (.program declarations)

def finish (file : String) (declarations : List NodeId) (b : Builder) : Tree :=
  let (root, b) := (program declarations).run b
  ⟨file, b.arena, root⟩

end Build

end DeployCheck
