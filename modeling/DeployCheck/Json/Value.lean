/-!
# JSON values

A value keeps the members of an object in the order of the text, repeated keys
included. Of a number that is no integer only the fact is kept: nothing here
reads one.
-/

set_option autoImplicit false

namespace DeployCheck.Json

inductive Value where
  | null
  | bool (value : Bool)
  | int (value : Int)
  | float
  | string (text : String)
  | array (items : List Value)
  | object (members : List (String × Value))

namespace Value

instance : Inhabited Value := ⟨.null⟩

mutual

def depth : Value → Nat
  | .array items => depthOfItems items + 1
  | .object members => depthOfMembers members + 1
  | _ => 0

def depthOfItems : List Value → Nat
  | [] => 0
  | v :: rest => max v.depth (depthOfItems rest)

def depthOfMembers : List (String × Value) → Nat
  | [] => 0
  | (_, v) :: rest => max v.depth (depthOfMembers rest)

end

end Value

end DeployCheck.Json
