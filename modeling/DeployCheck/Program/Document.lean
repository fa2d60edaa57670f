import DeployCheck.Program.Operator
import DeployCheck.Source.Span

/-!
# Programs as documents

A program is a list of declarations. Every declaration and expression may carry
the span of the source text it comes from.
-/

set_option autoImplicit false

namespace DeployCheck

mutual

inductive Expression where
  | string (value : Option String) (parts : List Part) (span : Option Span)
  | int (value : Int) (span : Option Span)
  | bool (value : Bool) (span : Option Span)
  | null (span : Option Span)
  | ident (name : String) (span : Option Span)
  | array (items : List Expression) (span : Option Span)
  | object (properties : List (String × Expression)) (span : Option Span)
  | property (base : Expression) (name : String) (span : Option Span)
  | index (base index : Expression) (span : Option Span)
  | resourceAccess (base : Expression) (name : String) (span : Option Span)
  | call (name : String) (args : List Expression) (span : Option Span)
  | instanceCall (base : Expression) (name : String) (args : List Expression)
      (span : Option Span)
  | paren (expression : Expression) (span : Option Span)
  | unary (operator : UnaryOperator) (expression : Expression) (span : Option Span)
  | binary (operator : BinaryOperator) (left right : Expression) (span : Option Span)
  | ternary (condition whenTrue whenFalse : Expression) (span : Option Span)
  | loop (item : String) (index : Option String) (expression body : Expression)
      (span : Option Span)
  | condition (condition body : Expression) (span : Option Span)

inductive Part where
  | text (text : String)
  | hole (expression : Expression)

end

/-- An output of a module. Outputs that are resources have a resource type. -/
structure ModuleOutput where
  name : String
  resource : Option String
  deriving DecidableEq

inductive Declaration where
  | param (name : String) (default : Option Expression) (span : Option Span)
  | var (name : String) (value : Expression) (span : Option Span)
  | resource (name type : String) (existing : Bool) (body : Expression)
      (resources : List Declaration) (span : Option Span)
  | module (name path : String) (body : Expression) (outputs : List ModuleOutput)
      (span : Option Span)
  | output (name : String) (value : Expression) (span : Option Span)

namespace Expression

def span : Expression → Option Span
  | string _ _ s | int _ s | bool _ s | null s | ident _ s | array _ s | object _ s
  | property _ _ s | index _ _ s | resourceAccess _ _ s | call _ _ s | instanceCall _ _ _ s
  | paren _ s | unary _ _ s | binary _ _ _ s | ternary _ _ _ s | loop _ _ _ _ s
  | condition _ _ s => s

end Expression

def Declaration.span : Declaration → Option Span
  | param _ _ s | var _ _ s | resource _ _ _ _ _ s | module _ _ _ _ s | output _ _ s => s

end DeployCheck
