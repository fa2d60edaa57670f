import DeployCheck.Program.Operator
import DeployCheck.Source.Span

/-!
# Nodes

Declarations and expressions are nodes of one kind. A node refers to its
children by their numbers; a number need not belong to any node.
-/

set_option autoImplicit false

namespace DeployCheck

abbrev NodeId := Nat

structure Identifier where
  name : String
  span : Span
  deriving DecidableEq

instance : Inhabited Identifier := ⟨⟨"", default⟩⟩

structure ObjectEntry where
  key : Identifier
  value : NodeId
  deriving DecidableEq

/-- An output in the signature of a module, with a type if it is a resource. -/
structure OutputSignature where
  name : Identifier
  resource : Option String
  deriving DecidableEq

inductive NodeData where
  | program (declarations : List NodeId)
  | param (name : Identifier) (default : Option NodeId)
  | var (name : Identifier) (value : NodeId)
  | resource (name : Identifier) (type : String) (existing : Bool) (body : NodeId)
      (nested : List NodeId)
  | module (name : Identifier) (path : String) (body : NodeId) (outputs : List OutputSignature)
  | output (name : Identifier) (value : NodeId)
  | string (segments : List String) (holes : List NodeId)
  | int (value : Int)
  | bool (value : Bool)
  | null
  | ident (name : Identifier)
  | array (items : List NodeId)
  | object (entries : List ObjectEntry)
  | property (base : NodeId) (name : Identifier)
  | index (base index : NodeId)
  | resourceAccess (base : NodeId) (name : Identifier)
  | call (name : Identifier) (args : List NodeId)
  | instanceCall (base : NodeId) (name : Identifier) (args : List NodeId)
  | paren (inner : NodeId)
  | unary (operator : UnaryOperator) (operand : NodeId)
  | binary (operator : BinaryOperator) (left right : NodeId)
  | ternary (condition whenTrue whenFalse : NodeId)
  | loop (item : Identifier) (index : Option Identifier) (iterated body : NodeId)
  | condition (condition body : NodeId)

namespace NodeData

def children : NodeData → List NodeId
  | program declarations => declarations
  | param _ default => default.toList
  | var _ value => [value]
  | resource _ _ _ body nested => body :: nested
  | module _ _ body _ => [body]
  | output _ value => [value]
  | string _ holes => holes
  | int _ | bool _ | null | ident _ => []
  | array items => items
  | object entries => entries.map ObjectEntry.value
  | property base _ => [base]
  | index base selector => [base, selector]
  | resourceAccess base _ => [base]
  | call _ args => args
  | instanceCall base _ args => base :: args
  | paren inner => [inner]
  | unary _ operand => [operand]
  | binary _ left right => [left, right]
  | ternary c t f => [c, t, f]
  | loop _ _ iterated body => [iterated, body]
  | condition c body => [c, body]

def kindName : NodeData → String
  | program _ => "program"
  | param .. => "param"
  | var .. => "var"
  | resource .. => "resource"
  | module .. => "module"
  | output .. => "output"
  | string .. => "string"
  | int _ => "int"
  | bool _ => "bool"
  | null => "null"
  | ident _ => "ident"
  | array _ => "array"
  | object _ => "object"
  | property .. => "property"
  | index .. => "index"
  | resourceAccess .. => "resourceAccess"
  | call .. => "call"
  | instanceCall .. => "instanceCall"
  | paren _ => "paren"
  | unary .. => "unary"
  | binary .. => "binary"
  | ternary .. => "ternary"
  | loop .. => "for"
  | condition .. => "if"

def isDeclaration : NodeData → Bool
  | program _ | param .. | var .. | resource .. | module .. | output .. => true
  | _ => false

def declaredName? : NodeData → Option Identifier
  | param name _ | var name _ | resource name _ _ _ _ | module name _ _ _ | output name _ =>
    some name
  | _ => none

def literal? : NodeData → Option String
  | string segments [] => segments.head?
  | _ => none

def isLoop : NodeData → Bool
  | loop .. => true
  | _ => false

end NodeData

structure Node where
  span : Span
  data : NodeData

end DeployCheck
