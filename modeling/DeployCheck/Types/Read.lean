import DeployCheck.Json.Record
import DeployCheck.Types.Catalog

/-!
# Types in JSON

Object types, their members, and lists of type definitions. Fields that are not
known are passed over.
-/

set_option autoImplicit false

namespace DeployCheck

open Json

def readFlags {φ : Type} (parse : String → Except Flags.Fault φ) : Reader φ := fun room r => do
  let text ← Reader.string room r
  (parse text).mapError fun fault => .mismatch (.flags fault)

def PropertyFlags.reader : Reader PropertyFlags := readFlags PropertyFlags.read

def FunctionFlags.reader : Reader FunctionFlags := readFlags FunctionFlags.read

def Property.reader : Reader Property :=
  Reader.record false fun room =>
    Property.mk <$> Form.required "name" (Reader.string room) <*>
      Form.optional "type" .any (Reader.oneOf TypeKind.ofName? room) <*>
      Form.optional "flags" .none (PropertyFlags.reader room)

def FunctionType.reader : Reader FunctionType :=
  Reader.record false fun room =>
    FunctionType.mk <$> Form.required "name" (Reader.string room) <*>
      Form.optional "flags" .none (FunctionFlags.reader room)

def ObjectType.reader : Reader ObjectType :=
  Reader.record false fun room =>
    ObjectType.ofDocument <$> (Document.mk <$> Form.optional "name" "" (Reader.string room) <*>
      Form.optional "properties" [] (Reader.list Property.reader room) <*>
      Form.optional "functions" [] (Reader.list FunctionType.reader room))

def TypeDefinition.reader : Reader TypeDefinition :=
  Reader.record false fun room =>
    TypeDefinition.mk <$> Form.required "type" (Reader.string room) <*>
      Form.required "body" (ObjectType.reader room)

def Catalog.ofText (text : String) : Except ReadError Catalog :=
  (Reader.text (Reader.list TypeDefinition.reader) text).map empty.define

end DeployCheck
