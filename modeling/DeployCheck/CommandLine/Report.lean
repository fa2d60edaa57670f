import DeployCheck.CommandLine.Run
import DeployCheck.Json.Printer
import DeployCheck.Source.LineMap

/-!
# Reports

The text report has a line for each diagnostic and each file that could not be
compiled. The JSON report holds the same entries with all their fields; lines
and columns count from one in the text report and from zero in the other.
-/

set_option autoImplicit false

namespace DeployCheck.CommandLine

open Json

structure Style where
  code : String

def Style.paint (style : Style) (color : Bool) (text : String) : String :=
  if color then "\x1b[" ++ style.code ++ "m" ++ text ++ "\x1b[0m" else text

def severityStyle : Severity → Style
  | .error => ⟨"1;31"⟩
  | .warning => ⟨"1;33"⟩

def codeStyle : Style := ⟨"94"⟩

/-- Columns and lines are counted in words of 32 bits. -/
def countFromOne (n : Nat) : Nat := (n + 1) % Word.count32

def location (d : Diagnostic) : Option LineMap → String
  | some lines =>
    let position := lines.position d.start
    d.file ++ ":" ++ toString (countFromOne position.line) ++ ":"
      ++ toString (countFromOne position.character)
  | none => d.file ++ "@" ++ toString d.start

def paintSeverity (color : Bool) (severity : Severity) : String :=
  (severityStyle severity).paint color severity.label

def diagnosticLine (color : Bool) (lines : Option LineMap) (d : Diagnostic) : String :=
  location d lines ++ " - " ++ paintSeverity color d.severity ++ " "
    ++ codeStyle.paint color d.codeText ++ ": " ++ d.message

def failureLine (color : Bool) (f : FailedUnit) : String :=
  f.path ++ ": " ++ paintSeverity color .error ++ ": " ++ f.error.message

def outputLines (color : Bool) (c : Compiled) : List String :=
  c.diagnostics.map (diagnosticLine color (c.source.map LineMap.ofSource))

def Summary.lines (s : Summary) (color : Bool) : List String :=
  s.outputs.flatMap (outputLines color) ++ s.failures.map (failureLine color)

def Summary.textReport (s : Summary) (color : Bool) : String := "\n".intercalate (s.lines color)

def namesValue (names : List String) : Value := .array (names.map .string)

def membersValue (m : AccessibleMembers) : Value :=
  .object [("kind", .string "nestedRuntimeMemberAccess"), ("resourceName", .string m.resource),
    ("accessibleProperties", namesValue m.properties),
    ("accessibleFunctions", namesValue m.functions)]

def positionValue (p : Position) : Value :=
  .object [("line", .int p.line), ("character", .int p.character)]

def diagnosticMembers (d : Diagnostic) : List (String × Value) :=
  [("file", .string d.file), ("start", .int d.start), ("length", .int d.length),
    ("messageText", .string d.message), ("category", .string d.severity.label),
    ("code", .int d.code)]
    ++ (d.members.map fun m => ("data", membersValue m)).toList

def diagnosticValue (lines : Option LineMap) (d : Diagnostic) : Value :=
  .object (diagnosticMembers d
    ++ (lines.map fun lines => ("position", positionValue (lines.position d.start))).toList)

def failureValue (f : FailedUnit) : Value :=
  .object [("file", .string f.path), ("message", .string f.error.message)]

def outputValues (c : Compiled) : List Value :=
  c.diagnostics.map (diagnosticValue (c.source.map LineMap.ofSource))

def Summary.value (s : Summary) : Value :=
  .object [("diagnostics", .array (s.outputs.flatMap outputValues)),
    ("failures", .array (s.failures.map failureValue))]

def Summary.jsonReport (s : Summary) : String := s.value.pretty

def Summary.report (s : Summary) (options : Options) (terminal : Bool) : String :=
  match options.format with
  | .text => s.textReport (terminal && !options.noColor)
  | .json => s.jsonReport

end DeployCheck.CommandLine
