import DeployCheck.Json.Value
import DeployCheck.Text.Hex

/-!
# Printing JSON values

Containers are spread over lines, with two spaces of indentation for each level;
empty ones stay on one line. Characters above the control characters are printed
as they are, apart from quotes and backslashes.
-/

set_option autoImplicit false

namespace DeployCheck.Json

def escape (c : Char) : List Char :=
  match c with
  | '"' => ['\\', '"']
  | '\\' => ['\\', '\\']
  | '\x08' => ['\\', 'b']
  | '\x0c' => ['\\', 'f']
  | '\n' => ['\\', 'n']
  | '\r' => ['\\', 'r']
  | '\t' => ['\\', 't']
  | c =>
    if c.toNat < 32 then
      let digits := (Text.hexText c.toNat).toList
      ['\\', 'u'] ++ List.replicate (4 - digits.length) '0' ++ digits
    else [c]

def quote (text : String) : String :=
  "\"" ++ String.ofList (text.toList.flatMap escape) ++ "\""

namespace Value

def indentation (level : Nat) : String := "\n" ++ String.ofList (List.replicate (2 * level) ' ')

def block (level : Nat) (opening closing : String) (items : List String) : String :=
  match items with
  | [] => opening ++ closing
  | items =>
    opening ++ indentation (level + 1)
      ++ ("," ++ indentation (level + 1)).intercalate items ++ indentation level ++ closing

mutual

def print (level : Nat) : Value → String
  | .null => "null"
  | .bool true => "true"
  | .bool false => "false"
  | .int n => toString n
  | .float => "0.0"
  | .string text => quote text
  | .array items => block level "[" "]" (printItems (level + 1) items)
  | .object members => block level "\x7b" "\x7d" (printMembers (level + 1) members)

def printItems (level : Nat) : List Value → List String
  | [] => []
  | v :: rest => print level v :: printItems level rest

def printMembers (level : Nat) : List (String × Value) → List String
  | [] => []
  | (key, v) :: rest => (quote key ++ ": " ++ print level v) :: printMembers level rest

end

def pretty (v : Value) : String := v.print 0

end Value

end DeployCheck.Json
