import DeployCheck.Types.ObjectType
import DeployCheck.Types.Reference

/-!
# The catalog of resource types

A catalog maps the text of a type reference to a body type, without regard to
case. A type that is missing from the catalog gets a generic body.
-/

set_option autoImplicit false

namespace DeployCheck

/-- A type reference as written, and the body it stands for. -/
structure TypeDefinition where
  type : String
  body : ObjectType
  deriving DecidableEq

instance : Named TypeDefinition := ⟨TypeDefinition.type⟩

structure Catalog where
  types : Roster TypeDefinition

namespace Catalog

def empty : Catalog := ⟨.empty⟩

instance : Inhabited Catalog := ⟨empty⟩

def insert (c : Catalog) (type : String) (body : ObjectType) : Catalog := ⟨c.types.put ⟨type, body⟩⟩

/-- Add definitions one by one; later ones win. -/
def define (c : Catalog) (definitions : List TypeDefinition) : Catalog :=
  ⟨c.types.putAll definitions⟩

def extend (c other : Catalog) : Catalog := c.define other.types.entries

def lookup (c : Catalog) (reference : TypeReference) : Option ObjectType :=
  (c.types.find? reference.text).map TypeDefinition.body

def size (c : Catalog) : Nat := c.types.size

def isEmpty (c : Catalog) : Bool := c.types.isEmpty

end Catalog

namespace ObjectType

def standard (name : String) : ObjectType :=
  let identity : PropertyFlags := .readOnly ||| .deployTimeConstant ||| .readableAtDeployTime
  named name
    |>.withProperty "id" .string identity
    |>.withProperty nameProperty .string
        (.required ||| .deployTimeConstant ||| .readableAtDeployTime)
    |>.withProperty "type" .string identity
    |>.withProperty "apiVersion" .string identity
    |>.withProperty "location" .string .readableAtDeployTime
    |>.withProperty "tags" .object .none

def generic (reference : TypeReference) : ObjectType :=
  (standard reference.text).withProperty "properties" .object .none

/-- The body of a module. What its outputs hold is known only after the
deployment. -/
def ofModule (path : String) : ObjectType :=
  named path
    |>.withProperty nameProperty .string
        (.required ||| .deployTimeConstant ||| .readableAtDeployTime)
    |>.withProperty outputsProperty .object .readOnly

end ObjectType

namespace Catalog

def builtin : Catalog :=
  let storage := "Microsoft.Storage/storageAccounts@2021-04-01"
  let blobs := "Microsoft.Storage/storageAccounts/blobServices@2021-04-01"
  let vaults := "Microsoft.KeyVault/vaults@2019-09-01"
  let sites := "Microsoft.Web/sites@2021-02-01"
  empty
    |>.insert storage (ObjectType.standard storage
        |>.withProperty "kind" .string .required
        |>.withProperty "sku" .object .required
        |>.withProperty "properties" .object .none
        |>.withFunction "listKeys" .inlining
        |>.withFunction "listAccountSas" .inlining
        |>.withFunction "listServiceSas" .inlining)
    |>.insert blobs (ObjectType.standard blobs
        |>.withProperty "properties" .object .none)
    |>.insert vaults (ObjectType.standard vaults
        |>.withProperty "properties" .object .required
        |>.withFunction "getSecret" .secureParameterOnly)
    |>.insert sites (ObjectType.standard sites
        |>.withProperty "kind" .string .none
        |>.withProperty "properties" .object .none
        |>.withFunction "listPublishingCredentials" .inlining)

end Catalog

end DeployCheck
