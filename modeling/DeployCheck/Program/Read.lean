import DeployCheck.Json.Tagged
import DeployCheck.Program.Document
import DeployCheck.Source.Read

/-!
# Programs in JSON

Declarations and expressions are objects with a `kind`, or arrays that start
with one. A kind that a text names is judged as soon as it is met; the fields
around it are judged once the whole object has been read.
-/

set_option autoImplicit false

namespace DeployCheck

open Json

namespace Expression

inductive Kind where
  | string
  | int
  | bool
  | null
  | ident
  | array
  | object
  | property
  | index
  | resourceAccess
  | call
  | instanceCall
  | paren
  | unary
  | binary
  | ternary
  | loop
  | condition
  deriving DecidableEq

instance : Tag Kind where
  all := [.string, .int, .bool, .null, .ident, .array, .object, .property, .index,
    .resourceAccess, .call, .instanceCall, .paren, .unary, .binary, .ternary, .loop, .condition]
  name
    | .string => "string"
    | .int => "int"
    | .bool => "bool"
    | .null => "null"
    | .ident => "ident"
    | .array => "array"
    | .object => "object"
    | .property => "property"
    | .index => "index"
    | .resourceAccess => "resourceAccess"
    | .call => "call"
    | .instanceCall => "instanceCall"
    | .paren => "paren"
    | .unary => "unary"
    | .binary => "binary"
    | .ternary => "ternary"
    | .loop => "for"
    | .condition => "if"

def spanField : Form Value (Option Span) :=
  .optional "span" none (Value.nullable Span.ofValue)

def readPart (expression : Value → Except ReadError Expression) : Value → Except ReadError Part
  | .string text => .ok (.text text)
  | v => match expression v with
    | .ok e => .ok (.hole e)
    | .error _ => .error (.mismatch .stringPart)

/-- Set a key: in its place if it is there already, else at the end. -/
def setKey (key : String) (e : Expression) :
    List (String × Expression) → List (String × Expression)
  | [] => [(key, e)]
  | (k, d) :: rest => if k = key then (key, e) :: rest else (k, d) :: setKey key e rest

def readProperties (expression : Value → Except ReadError Expression) :
    List (String × Expression) → List (String × Value) →
    Except ReadError (List (String × Expression))
  | done, [] => .ok done
  | done, (key, v) :: rest => do
    let e ← expression v
    readProperties expression (setKey key e done) rest

def form (expression : Value → Except ReadError Expression) : Kind → Form Value Expression
  | .string =>
    string <$> .optional "value" none (Value.nullable Value.asString) <*>
      .optional "parts" [] (Value.asList (readPart expression)) <*> spanField
  | .int => int <$> .required "value" Value.asInteger <*> spanField
  | .bool => bool <$> .required "value" Value.asBool <*> spanField
  | .null => null <$> spanField
  | .ident => ident <$> .required "name" Value.asString <*> spanField
  | .array => array <$> .optional "items" [] (Value.asList expression) <*> spanField
  | .object =>
    object <$> .optional "properties" [] (fun
      | .object members => readProperties expression [] members
      | _ => .error (.mismatch .type)) <*> spanField
  | .property =>
    property <$> .required "base" expression <*> .required "name" Value.asString <*> spanField
  | .index =>
    index <$> .required "base" expression <*> .required "index" expression <*> spanField
  | .resourceAccess =>
    resourceAccess <$> .required "base" expression <*> .required "name" Value.asString <*>
      spanField
  | .call =>
    call <$> .required "name" Value.asString <*>
      .optional "args" [] (Value.asList expression) <*> spanField
  | .instanceCall =>
    instanceCall <$> .required "base" expression <*> .required "name" Value.asString <*>
      .optional "args" [] (Value.asList expression) <*> spanField
  | .paren => paren <$> .required "expression" expression <*> spanField
  | .unary =>
    unary <$> .required "operator" (Value.asOneOf UnaryOperator.ofSymbol?) <*>
      .required "expression" expression <*> spanField
  | .binary =>
    binary <$> .required "operator" (Value.asOneOf BinaryOperator.ofSymbol?) <*>
      .required "left" expression <*> .required "right" expression <*> spanField
  | .ternary =>
    ternary <$> .required "condition" expression <*> .required "then" expression <*>
      .required "else" expression <*> spanField
  | .loop =>
    loop <$> .required "item" Value.asString <*>
      .optional "index" none (Value.nullable Value.asString) <*>
      .required "expression" expression <*> .required "body" expression <*> spanField
  | .condition =>
    condition <$> .required "condition" expression <*> .required "body" expression <*> spanField

def readWithin : Nat → Value → Except ReadError Expression
  | 0, _ => .error .malformed
  | fuel + 1, v => do
    let (kind, record) ← Tag.splitValue v
    (form (readWithin fuel) kind).ofValue record

def ofValue (v : Value) : Except ReadError Expression := readWithin (v.depth + 1) v

end Expression

def ModuleOutput.ofValue : Value → Except ReadError ModuleOutput :=
  Form.ofValue (mk <$> .required "name" Value.asString <*>
    .optional "resource" none (Value.nullable Value.asString))

namespace Declaration

inductive Kind where
  | param
  | var
  | resource
  | module
  | output
  deriving DecidableEq

instance : Tag Kind where
  all := [.param, .var, .resource, .module, .output]
  name
    | .param => "param"
    | .var => "var"
    | .resource => "resource"
    | .module => "module"
    | .output => "output"

def form (declaration : Value → Except ReadError Declaration) : Kind → Form Value Declaration
  | .param =>
    param <$> .required "name" Value.asString <*>
      .optional "default" none (Value.nullable Expression.ofValue) <*> Expression.spanField
  | .var =>
    var <$> .required "name" Value.asString <*> .required "value" Expression.ofValue <*>
      Expression.spanField
  | .resource =>
    resource <$> .required "name" Value.asString <*> .required "type" Value.asString <*>
      .optional "existing" false Value.asBool <*> .required "body" Expression.ofValue <*>
      .optional "resources" [] (Value.asList declaration) <*> Expression.spanField
  | .module =>
    module <$> .required "name" Value.asString <*> .required "path" Value.asString <*>
      .required "body" Expression.ofValue <*>
      .optional "outputs" [] (Value.asList ModuleOutput.ofValue) <*> Expression.spanField
  | .output =>
    output <$> .required "name" Value.asString <*> .required "value" Expression.ofValue <*>
      Expression.spanField

def readWithin : Nat → Value → Except ReadError Declaration
  | 0, _ => .error .malformed
  | fuel + 1, v => do
    let (kind, record) ← Tag.splitValue v
    (form (readWithin fuel) kind).ofValue record

def reader : Reader Declaration := fun room r => do
  let (kind, record) ← Tag.split room r
  (form (readWithin record.depth) kind).ofValue record

end Declaration

abbrev Program := List Declaration

def Program.ofText (text : String) : Except ReadError Program :=
  Reader.text (Reader.list Declaration.reader) text

end DeployCheck
