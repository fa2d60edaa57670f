import DeployCheck.Text.Name
import DeployCheck.Text.Word

/-!
# Options of the command line

Arguments are taken from the left to the right. A value that stands apart from
its option, and the names of files, are judged only when the next option that is
known or, for an option's value, the next file name comes up, or at the end; an
option that is not known is an error at once.
-/

set_option autoImplicit false

namespace DeployCheck.CommandLine

inductive UsageError where
  | unknownArgument
  | invalidValue
  | valueValidation
  | argumentConflict
  | tooManyValues
  | missingRequiredArgument
  | displayHelp
  | displayVersion
  deriving DecidableEq

def UsageError.name : UsageError → String
  | .unknownArgument => "UnknownArgument"
  | .invalidValue => "InvalidValue"
  | .valueValidation => "ValueValidation"
  | .argumentConflict => "ArgumentConflict"
  | .tooManyValues => "TooManyValues"
  | .missingRequiredArgument => "MissingRequiredArgument"
  | .displayHelp => "DisplayHelp"
  | .displayVersion => "DisplayVersion"

inductive ReportFormat where
  | text
  | json
  deriving DecidableEq

namespace ReportFormat

def name : ReportFormat → String
  | .text => "text"
  | .json => "json"

def ofName? (name : String) : Option ReportFormat :=
  [ReportFormat.text, ReportFormat.json].find? fun format => Name.same format.name name

end ReportFormat

structure Options where
  files : List String
  types : Option String
  format : ReportFormat
  noColor : Bool
  jobs : Option Nat
  deriving DecidableEq

inductive Valued where
  | types
  | format
  | jobs
  deriving DecidableEq

inductive Switch where
  | noColor
  | help
  | version
  deriving DecidableEq

/-- What has been named but not judged yet. -/
inductive Pending where
  | nothing
  | files (names : List String)
  | value (option : Valued) (value : Option String)

structure Progress where
  files : List String
  types : Option String
  format : Option ReportFormat
  jobs : Option Nat
  noColor : Bool
  pending : Pending

namespace Progress

def start : Progress := ⟨[], none, none, none, false, .nothing⟩

def isSet (p : Progress) : Valued → Bool
  | .types => p.types.isSome
  | .format => p.format.isSome
  | .jobs => p.jobs.isSome

/-- A count that fits 64 bits, with an optional plus sign in front. -/
def count? (text : String) : Option Nat :=
  let digits := match text.toList with
    | '+' :: rest => rest
    | cs => cs
  if digits.isEmpty || !digits.all Char.isDigit then none
  else
    let n := digits.foldl (fun n d => 10 * n + (d.toNat - 48)) 0
    if n < Word.count64 then some n else none

def setValue (p : Progress) (option : Valued) (value : String) : Except UsageError Progress :=
  if p.isSet option then .error .argumentConflict
  else match option with
    | .types =>
      if value.isEmpty then .error .invalidValue else .ok { p with types := some value }
    | .format => match ReportFormat.ofName? value with
      | some format => .ok { p with format := some format }
      | none => .error .invalidValue
    | .jobs => match count? value with
      | some n => .ok { p with jobs := some n }
      | none => .error .valueValidation

def resolve (p : Progress) : Except UsageError Progress :=
  let done := { p with pending := .nothing }
  match p.pending with
  | .nothing => .ok done
  | .files names =>
    if names.any String.isEmpty then .error .invalidValue
    else .ok { done with files := p.files ++ names }
  | .value _ none => .error .invalidValue
  | .value option (some value) => done.setValue option value

def addFile (p : Progress) (name : String) : Except UsageError Progress :=
  match p.pending with
  | .files names => .ok { p with pending := .files (names ++ [name]) }
  | _ => do
    let p ← p.resolve
    return { p with pending := .files [name] }

def meetValued (p : Progress) (option : Valued) (attached : Option String) :
    Except UsageError Progress := do
  let p ← p.resolve
  match attached with
  | some value => p.setValue option value
  | none => return { p with pending := .value option none }

def meetSwitch (p : Progress) (switch : Switch) : Except UsageError Progress := do
  let p ← p.resolve
  match switch with
  | .help => .error .displayHelp
  | .version => .error .displayVersion
  | .noColor => if p.noColor then .error .argumentConflict else .ok { p with noColor := true }

def long? (name : List Char) : Option (Valued ⊕ Switch) :=
  match String.ofList name with
  | "types" => some (.inl .types)
  | "format" => some (.inl .format)
  | "jobs" => some (.inl .jobs)
  | "no-color" => some (.inr .noColor)
  | "help" => some (.inr .help)
  | "version" => some (.inr .version)
  | _ => none

def meetLong (p : Progress) (text : List Char) : Except UsageError Progress :=
  let (name, rest) := text.span (· ≠ '=')
  let attached := match rest with
    | _ :: value => some (String.ofList value)
    | [] => none
  match long? name, attached with
  | none, _ => .error .unknownArgument
  | some (.inl option), attached => p.meetValued option attached
  | some (.inr _), some _ => .error .tooManyValues
  | some (.inr switch), none => p.meetSwitch switch

/-- Short options, after their dash. The value of an option may follow it
directly or after an equals sign. -/
def meetShort (p : Progress) : List Char → Except UsageError Progress
  | [] => .ok p
  | 'j' :: rest =>
    p.meetValued .jobs (match rest with
      | [] => none
      | '=' :: value => some (String.ofList value)
      | value => some (String.ofList value))
  | 'h' :: rest => do
    let p ← p.meetSwitch .help
    p.meetShort rest
  | 'V' :: rest => do
    let p ← p.meetSwitch .version
    p.meetShort rest
  | _ :: _ => .error .unknownArgument

def meet (p : Progress) (arg : String) : Except UsageError Progress :=
  match arg.toList with
  | '-' :: '-' :: text => p.meetLong text
  | '-' :: c :: text => p.meetShort (c :: text)
  | _ => match p.pending with
    | .value option none => .ok { p with pending := .value option (some arg) }
    | _ => p.addFile arg

/-- Go through the arguments. After `--` all of them are names of files. -/
def scan (p : Progress) (onlyFiles : Bool) : List String → Except UsageError Progress
  | [] => p.resolve
  | arg :: rest =>
    if onlyFiles then do
      let p ← p.addFile arg
      p.scan true rest
    else if arg = "--" then p.scan true rest
    else do
      let p ← p.meet arg
      p.scan false rest

end Progress

def Options.ofArgs (args : List String) : Except UsageError Options := do
  let p ← Progress.start.scan false args
  if p.files.isEmpty then .error .missingRequiredArgument
  else return ⟨p.files, p.types, p.format.getD .text, p.noColor, p.jobs⟩

end DeployCheck.CommandLine
