import DeployCheck.Types.Flags

/-!
# What can be wrong with a JSON text

A text ends too early, has a character out of place, or is well formed but not
of the expected shape.
-/

set_option autoImplicit false

namespace DeployCheck.Json

inductive Fault where
  | incomplete
  | malformed
  deriving DecidableEq

/-- A place where the text stops being JSON, for a reader that wants the value
there and for one that only passes over it. -/
structure Break where
  strict : Fault
  lenient : Fault
  deriving DecidableEq

def Break.of (fault : Fault) : Break := ⟨fault, fault⟩

/-- How a well-formed text differs from the expected shape. -/
inductive Mismatch where
  | missingField (name : String)
  | unknownField (name : String)
  | duplicateField (name : String)
  | unknownVariant (name : String)
  | type
  | value
  | length (found : Nat)
  | stringPart
  | flags (fault : Flags.Fault)
  deriving DecidableEq

inductive ReadError where
  | fault (fault : Fault)
  | mismatch (mismatch : Mismatch)
  deriving DecidableEq

namespace ReadError

def incomplete : ReadError := .fault .incomplete
def malformed : ReadError := .fault .malformed

def category : ReadError → String
  | .fault .incomplete => "eof"
  | .fault .malformed => "syntax"
  | .mismatch _ => "data"

def detail? : ReadError → Option String
  | .fault _ => none
  | .mismatch m => some <| match m with
    | .missingField name => "missing field `" ++ name ++ "`"
    | .unknownField name => "unknown field `" ++ name ++ "`"
    | .duplicateField name => "duplicate field `" ++ name ++ "`"
    | .unknownVariant name => "unknown variant `" ++ name ++ "`"
    | .type => "invalid type"
    | .value => "invalid value"
    | .length found => "invalid length " ++ toString found
    | .stringPart => "data did not match any variant of untagged enum StringPart"
    | .flags .emptyPart => "encountered empty flag"
    | .flags .unknownName => "unrecognized named flag"
    | .flags .badWord => "invalid hex flag"

def summary (e : ReadError) : String :=
  "<json " ++ e.category ++ (match e.detail? with
    | some detail => ": " ++ detail
    | none => "") ++ ">"

end ReadError

end DeployCheck.Json
