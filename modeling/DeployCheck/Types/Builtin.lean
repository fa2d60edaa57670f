import DeployCheck.Types.ObjectType

/-!
# Builtin functions

The functions that can be called without a receiver. All but `reference` and
the `list` family can be evaluated before the deployment.
-/

set_option autoImplicit false

namespace DeployCheck.Builtin

def deployTimeNames : List String :=
  ["any", "array", "base64", "bool", "concat", "contains", "createArray", "createObject",
   "deployment", "empty", "endsWith", "environment", "first", "format", "guid", "indexOf", "int",
   "intersection", "json", "last", "length", "managementGroup", "max", "min", "padLeft", "range",
   "replace", "resourceGroup", "resourceId", "skip", "split", "startsWith", "string",
   "subscription", "subscriptionResourceId", "substring", "take", "tenant", "tenantResourceId",
   "toLower", "toUpper", "trim", "union", "uniqueString", "uri"]

def runtimeNames : List String := ["reference", "list"]

def functions : List FunctionType :=
  deployTimeNames.map (⟨·, .none⟩) ++ runtimeNames.map (⟨·, .inlining⟩)

/-- The function that stands for all names that start with `list` and go on. -/
def listFamily : FunctionType := ⟨"list*", .inlining⟩

def inListFamily (name : String) : Bool :=
  match (Name.key name).toList with
  | 'l' :: 'i' :: 's' :: 't' :: _ :: _ => true
  | _ => false

def find? (name : String) : Option FunctionType :=
  (functions.find? fun f => Name.same f.name name).or
    (if inListFamily name then some listFamily else none)

theorem find?_congr {name other : String} (h : Name.same name other = true) :
    find? name = find? other := by
  rw [Name.same_iff] at h
  rw [find?, find?, inListFamily, inListFamily, h]
  simp only [Name.same, h]

end DeployCheck.Builtin
