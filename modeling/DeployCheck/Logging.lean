import DeployCheck.Text.Blank
import DeployCheck.Text.Name

/-!
# Settings for logging

Logging is asked for by a variable of its own, or else by one that other
programs share. A second variable names its format; a format that is not known
counts as plain text.
-/

set_option autoImplicit false

namespace DeployCheck.Logging

inductive Format where
  | text
  | tree
  | json
  deriving DecidableEq

namespace Format

def name : Format → String
  | .text => "text"
  | .tree => "tree"
  | .json => "json"

def ofText (value : String) : Format :=
  match Name.key (String.ofList (Text.trim value.toList)) with
  | "tree" => .tree
  | "json" => .json
  | _ => .text

end Format

structure Settings where
  directives : String
  format : Format
  deriving DecidableEq

def variableName : String := "BCZ_LOG"
def fallbackVariableName : String := "RUST_LOG"
def formatVariableName : String := "BCZ_LOG_FORMAT"

def settings? (value? : String → Option String) : Option Settings :=
  ((value? variableName).or (value? fallbackVariableName)).map fun directives =>
    ⟨directives, ((value? formatVariableName).map Format.ofText).getD .text⟩

end DeployCheck.Logging
