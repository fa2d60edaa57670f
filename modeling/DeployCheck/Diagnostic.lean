import DeployCheck.Source.Span
import DeployCheck.Text.Template

/-!
# Diagnostics

What the checker says about a program: the span it is about, a numbered rule,
and a text. The rule on runtime access also lists the members that may be used.
-/

set_option autoImplicit false

namespace DeployCheck

inductive Severity where
  | warning
  | error
  deriving DecidableEq

def Severity.label : Severity → String
  | .warning => "warning"
  | .error => "error"

inductive Rule where
  | duplicateName
  | unknownName
  | untypedResource
  | runtimeAccess
  deriving DecidableEq

namespace Rule

def all : List Rule := [.duplicateName, .unknownName, .untypedResource, .runtimeAccess]

def code : Rule → Nat
  | .duplicateName => 28
  | .unknownName => 57
  | .untypedResource => 81
  | .runtimeAccess => 307

def severity : Rule → Severity
  | .untypedResource => .warning
  | _ => .error

def template : Rule → String
  | .duplicateName =>
    "Identifier \"{0}\" is declared multiple times. Remove or rename the duplicates."
  | .unknownName => "The name \"{0}\" does not exist in the current context."
  | .untypedResource => "Resource type \"{0}\" does not have types available."
  | .runtimeAccess =>
    "The expression cannot be evaluated, because the identifier properties of the referenced existing resource cannot be calculated at the start of the deployment. In this situation,{0}{1}"

def ofCode? (code : Nat) : Option Rule := all.find? fun rule => rule.code == code

end Rule

/-- The members of a resource that may be used although its name is only known
at runtime. -/
structure AccessibleMembers where
  resource : String
  properties : List String
  functions : List String
  deriving DecidableEq

structure Diagnostic where
  file : String
  start : Nat
  length : Nat
  message : String
  severity : Severity
  code : Nat
  members : Option AccessibleMembers
  deriving DecidableEq

namespace Diagnostic

def atSpan (file : String) (span : Span) (severity : Severity) (code : Nat) (message : String) :
    Diagnostic where
  file
  start := span.start
  length := span.length
  message
  severity
  code
  members := none

def ofRule (file : String) (span : Span) (rule : Rule) (values : List String) : Diagnostic :=
  atSpan file span rule.severity rule.code (Text.fill rule.template values)

def span (d : Diagnostic) : Span := Span.between d.start (d.start + d.length)

def isError (d : Diagnostic) : Bool := d.severity == .error

/-- The code with at least three digits. -/
def codeText (d : Diagnostic) : String :=
  let digits := toString d.code
  "BCP" ++ String.ofList (List.replicate (3 - digits.length) '0') ++ digits

theorem span_atSpan (file : String) (s : Span) (severity : Severity) (code : Nat) (message : String) :
    (atSpan file s severity code message).span = s := by
  have h₁ := s.ordered
  have h₂ := s.bounded
  apply Span.ext
  · exact Span.start_between (by simp only [atSpan]; omega)
  · simp only [atSpan, span, Span.length]
    rw [Span.stop_between (by omega) (by omega)]
    omega

end Diagnostic

end DeployCheck
