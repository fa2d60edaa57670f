import DeployCheck.Types.Flags
import DeployCheck.Types.Roster

/-!
# Object types

The body of a resource or module: a name, properties and instance functions.
Members keep the order in which they were declared, because diagnostics list
them in that order.
-/

set_option autoImplicit false

namespace DeployCheck

inductive TypeKind where
  | any
  | string
  | int
  | bool
  | null
  | array
  | object
  deriving DecidableEq

namespace TypeKind

def all : List TypeKind := [.any, .string, .int, .bool, .null, .array, .object]

def name : TypeKind → String
  | .any => "any"
  | .string => "string"
  | .int => "int"
  | .bool => "bool"
  | .null => "null"
  | .array => "array"
  | .object => "object"

def ofName? (name : String) : Option TypeKind := all.find? fun kind => kind.name == name

end TypeKind

structure Property where
  name : String
  kind : TypeKind
  flags : PropertyFlags
  deriving DecidableEq

instance : Named Property := ⟨Property.name⟩

structure FunctionType where
  name : String
  flags : FunctionFlags
  deriving DecidableEq

instance : Named FunctionType := ⟨FunctionType.name⟩

structure ObjectType where
  name : String
  properties : Roster Property
  functions : Roster FunctionType
  deriving DecidableEq

namespace ObjectType

def nameProperty : String := "name"

def outputsProperty : String := "outputs"

def named (name : String) : ObjectType := ⟨name, .empty, .empty⟩

instance : Inhabited ObjectType := ⟨named ""⟩

/-- An object type as it is written down. A name may come up several times. -/
structure Document where
  name : String
  properties : List Property
  functions : List FunctionType
  deriving DecidableEq

/-- The type with the members of a document; later members win. -/
def ofDocument (d : Document) : ObjectType :=
  ⟨d.name, .ofList d.properties, .ofList d.functions⟩

def document (t : ObjectType) : Document := ⟨t.name, t.properties.entries, t.functions.entries⟩

def insertProperty (t : ObjectType) (p : Property) : ObjectType :=
  { t with properties := t.properties.put p }

def withProperty (t : ObjectType) (name : String) (kind : TypeKind) (flags : PropertyFlags) :
    ObjectType :=
  t.insertProperty ⟨name, kind, flags⟩

def withFunction (t : ObjectType) (name : String) (flags : FunctionFlags) : ObjectType :=
  { t with functions := t.functions.put ⟨name, flags⟩ }

def property? (t : ObjectType) (name : String) : Option Property := t.properties.find? name

def function? (t : ObjectType) (name : String) : Option FunctionType := t.functions.find? name

def isReadable (t : ObjectType) (name : String) : Bool :=
  match t.property? name with
  | some p => p.flags.isReadable
  | none => false

def updateFlags (t : ObjectType) (name : String) (f : PropertyFlags → PropertyFlags) :
    ObjectType :=
  match t.property? name with
  | some p => t.insertProperty { p with flags := f p.flags }
  | none => t

theorem property?_insertProperty (t : ObjectType) (p : Property) (name : String) :
    (t.insertProperty p).property? name =
      if Name.same p.name name then some p else t.property? name :=
  Roster.find?_put ..

end ObjectType

end DeployCheck
