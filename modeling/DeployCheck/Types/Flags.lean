import DeployCheck.Text.Blank
import DeployCheck.Text.Hex
import DeployCheck.Text.Word

/-!
# Flags

Properties and functions of a resource type carry sets of flags. A set is a
word of 32 bits; some bits have names, and bits without a name are kept. In
text, flags are joined by bars, and a part that starts with `0x` is a word in
hexadecimal digits.
-/

set_option autoImplicit false

namespace DeployCheck.Flags

inductive Fault where
  | emptyPart
  | unknownName
  | badWord
  deriving DecidableEq

/-- A word in hexadecimal digits, with an optional plus sign in front. -/
def word? (digits : List Char) : Option (BitVec 32) :=
  let digits := match digits with
    | '+' :: rest => rest
    | _ => digits
  if digits.isEmpty then none
  else (Text.hexNumber? digits).bind fun n => if n < Word.count32 then some (.ofNat 32 n) else none

def named? (name : String) : List String → Nat → Option (BitVec 32)
  | [], _ => none
  | n :: rest, bit => if n = name then some (.twoPow 32 bit) else named? name rest (bit + 1)

def readPart (names : List String) (part : List Char) : Except Fault (BitVec 32) :=
  match Text.trim part with
  | [] => .error .emptyPart
  | '0' :: 'x' :: digits => match word? digits with
    | some w => .ok w
    | none => .error .badWord
  | name => match named? (String.ofList name) names 0 with
    | some w => .ok w
    | none => .error .unknownName

def readParts (names : List String) (flags : BitVec 32) :
    List (List Char) → Except Fault (BitVec 32)
  | [] => .ok flags
  | part :: rest => do
    let w ← readPart names part
    readParts names (flags ||| w) rest

/-- Read flags of which the first few bits have names. Blank text names none. -/
def read (names : List String) (text : String) : Except Fault (BitVec 32) :=
  if (Text.trim text.toList).isEmpty then .ok 0
  else readParts names 0 (text.toList.splitOn '|')

def setNames (flags : BitVec 32) : List String → Nat → List String
  | [], _ => []
  | n :: rest, bit =>
    if flags.getLsbD bit then n :: setNames flags rest (bit + 1)
    else setNames flags rest (bit + 1)

/-- Names in the order of their bits, then the bits without a name as one word. -/
def print (names : List String) (flags : BitVec 32) : String :=
  let unnamed := flags.toNat >>> names.length <<< names.length
  let word := if unnamed = 0 then [] else ["0x" ++ Text.hexText unnamed]
  " | ".intercalate (setNames flags names 0 ++ word)

end DeployCheck.Flags

namespace DeployCheck

/-- Flags of a property. Only `readableAtDeployTime` has a meaning here. -/
structure PropertyFlags where
  bits : BitVec 32
  deriving DecidableEq

namespace PropertyFlags

def names : List String :=
  ["REQUIRED", "READ_ONLY", "WRITE_ONLY", "DEPLOY_TIME_CONSTANT", "READABLE_AT_DEPLOY_TIME"]

def none : PropertyFlags := ⟨0⟩
def required : PropertyFlags := ⟨.twoPow 32 0⟩
def readOnly : PropertyFlags := ⟨.twoPow 32 1⟩
def deployTimeConstant : PropertyFlags := ⟨.twoPow 32 3⟩
def readableAtDeployTime : PropertyFlags := ⟨.twoPow 32 4⟩

instance : Inhabited PropertyFlags := ⟨none⟩

instance : OrOp PropertyFlags := ⟨fun f g => ⟨f.bits ||| g.bits⟩⟩

def isReadable (f : PropertyFlags) : Bool := f.bits.getLsbD 4

def setReadable (f : PropertyFlags) (readable : Bool) : PropertyFlags :=
  if readable then f ||| readableAtDeployTime
  else ⟨f.bits &&& ~~~readableAtDeployTime.bits⟩

def read (text : String) : Except Flags.Fault PropertyFlags := (Flags.read names text).map mk

def print (f : PropertyFlags) : String := Flags.print names f.bits

theorem isReadable_setReadable (f : PropertyFlags) (b : Bool) :
    (f.setReadable b).isReadable = b := by
  cases b
  · simp [setReadable, isReadable, readableAtDeployTime]
  · simp only [setReadable, isReadable, ↓reduceIte]
    change (f.bits ||| readableAtDeployTime.bits).getLsbD 4 = true
    simp [readableAtDeployTime]

end PropertyFlags

/-- Flags of a function. Only `requiresInlining` has a meaning here. -/
structure FunctionFlags where
  bits : BitVec 32
  deriving DecidableEq

namespace FunctionFlags

def names : List String := ["REQUIRES_INLINING", "MODULE_SECURE_PARAMETER_ONLY"]

def none : FunctionFlags := ⟨0⟩
def inlining : FunctionFlags := ⟨.twoPow 32 0⟩
def secureParameterOnly : FunctionFlags := ⟨.twoPow 32 1⟩

instance : Inhabited FunctionFlags := ⟨none⟩

def requiresInlining (f : FunctionFlags) : Bool := f.bits.getLsbD 0

def read (text : String) : Except Flags.Fault FunctionFlags := (Flags.read names text).map mk

def print (f : FunctionFlags) : String := Flags.print names f.bits

end FunctionFlags

end DeployCheck
