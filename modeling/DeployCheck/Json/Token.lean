import DeployCheck.Json.Fault
import DeployCheck.Text.Word

/-!
# Tokens of a JSON text

Reading the first token of a text gives the token and the rest of the text. A
string whose escapes do not pair up their surrogates is well formed, but can
only be passed over; so is a number whose double is infinite.
-/

set_option autoImplicit false

namespace DeployCheck.Json

/-- The text of a string, or the fault of a string that can only be passed over. -/
abbrev StringText := Except Fault String

inductive Start where
  | nothing
  | quote
  | other
  deriving DecidableEq

inductive Token where
  | openArray
  | closeArray
  | openObject
  | closeObject
  | comma
  | colon
  | null
  | bool (value : Bool)
  | int (value : Int)
  | float (inRange : Bool)
  | string (text : StringText)
  | broken (start : Start) (cause : Break)

namespace Token

def isSpace (c : Char) : Bool := c == ' ' || c == '\n' || c == '\t' || c == '\r'

def readWord (token : Token) : List Char → List Char → Token × List Char
  | [], rest => (token, rest)
  | _ :: _, [] => (.broken .other (.of .incomplete), [])
  | e :: expected, c :: rest =>
    if c = e then readWord token expected rest else (.broken .other (.of .malformed), rest)

def digitValue (c : Char) : Nat := c.toNat - 48

def natOf (digits : List Char) : Nat := digits.foldl (fun n d => 10 * n + digitValue d) 0

/-- Read digits of an integer part while they fit a word; the number of digits
that are left over is the second result. -/
def wholeDigits : Nat → Nat → List Char → Nat × Nat
  | significand, dropped, [] => (significand, dropped)
  | significand, dropped, d :: rest =>
    if dropped = 0 ∧ 10 * significand + digitValue d < Word.count64 then
      wholeDigits (10 * significand + digitValue d) 0 rest
    else wholeDigits significand (dropped + 1) rest

def fractionDigits : Nat → Nat → List Char → Nat × Nat
  | significand, used, [] => (significand, used)
  | significand, used, d :: rest =>
    if 10 * significand + digitValue d < Word.count64 then
      fractionDigits (10 * significand + digitValue d) (used + 1) rest
    else (significand, used)

/-- Round to 53 significant bits; a tie goes to the even neighbour. -/
def roundToDouble (n : Nat) : Nat :=
  if n < 1 <<< 53 then n
  else
    let shift := n.log2 - 52
    let quotient := n >>> shift
    let remainder := n % (1 <<< shift)
    let half := 1 <<< (shift - 1)
    let up := half < remainder || (half == remainder && quotient % 2 == 1)
    (if up then quotient + 1 else quotient) <<< shift

def tenTo : Nat → Nat
  | 0 => 1
  | n + 1 => 10 * tenTo n

/-- Whether a significand times a power of ten is finite as a double. -/
def isFinite (significand : Nat) (exponent : Int) : Bool :=
  significand == 0 || exponent < 0
    || (exponent ≤ 308
        && roundToDouble (roundToDouble significand * roundToDouble (tenTo exponent.toNat))
            < 1 <<< 1024)

/-- The token of an integer: beyond 64 bits it counts as a double, and so does
zero with a minus sign. -/
def ofInteger (negative : Bool) (digits : List Char) : Token :=
  let n := natOf digits
  if negative then
    if n = 0 then .float true
    else if 2 * n ≤ Word.count64 then .int (-n)
    else
      let (significand, dropped) := wholeDigits 0 0 digits
      .float (isFinite significand dropped)
  else if n < Word.count64 then .int n
  else
    let (significand, dropped) := wholeDigits 0 0 digits
    .float (isFinite significand dropped)

def needsDigit (rest : List Char) : Token × List Char :=
  (.broken .other ⟨if rest.isEmpty then .incomplete else .malformed, .malformed⟩, rest)

def readExponent (significand : Nat) (scale : Int) (cs : List Char) : Token × List Char :=
  let (negative, digits) := match cs with
    | '-' :: rest => (true, rest)
    | '+' :: rest => (false, rest)
    | _ => (false, cs)
  match digits.span Char.isDigit with
  | ([], rest) => needsDigit rest
  | (digits, rest) =>
    let n : Int := natOf digits
    (.float (isFinite significand (scale + if negative then -n else n)), rest)

def afterWhole (negative : Bool) (digits : List Char) : List Char → Token × List Char
  | '.' :: rest =>
    let (significand, dropped) := wholeDigits 0 0 digits
    match rest.span Char.isDigit with
    | ([], rest) => needsDigit rest
    | (fraction, rest) =>
      let (significand, used) := fractionDigits significand 0 fraction
      let scale : Int := dropped - used
      match rest with
      | 'e' :: rest => readExponent significand scale rest
      | 'E' :: rest => readExponent significand scale rest
      | rest => (.float (isFinite significand scale), rest)
  | 'e' :: rest =>
    let (significand, dropped) := wholeDigits 0 0 digits
    readExponent significand dropped rest
  | 'E' :: rest =>
    let (significand, dropped) := wholeDigits 0 0 digits
    readExponent significand dropped rest
  | rest => (ofInteger negative digits, rest)

def readNumber (negative : Bool) (cs : List Char) : Token × List Char :=
  match cs.span Char.isDigit with
  | ([], rest) => needsDigit rest
  | ('0' :: _ :: _, rest) => (.broken .other (.of .malformed), rest)
  | (digits, rest) => afterWhole negative digits rest

def hexQuad (a b c d : Char) : Option Nat :=
  Text.hexNumber? [a, b, c, d]

def isHighSurrogate (n : Nat) : Bool := 0xD800 ≤ n && n ≤ 0xDBFF

def isLowSurrogate (n : Nat) : Bool := 0xDC00 ≤ n && n ≤ 0xDFFF

def joinSurrogates (high low : Nat) : Char :=
  Char.ofNat (0x10000 + (high - 0xD800) * 0x400 + (low - 0xDC00))

def escaped? : Char → Option Char
  | '"' => some '"'
  | '\\' => some '\\'
  | '/' => some '/'
  | 'b' => some '\x08'
  | 'f' => some '\x0c'
  | 'n' => some '\n'
  | 'r' => some '\r'
  | 't' => some '\t'
  | _ => none

def unpaired (high : Option Nat) (lone : Option Fault) : Option Fault :=
  if high.isSome then some (lone.getD .malformed) else lone

def cutString (lone : Option Fault) (fault : Fault) (rest : List Char) : Token × List Char :=
  (.broken .quote ⟨lone.getD fault, fault⟩, rest)

/-- The text of a string after its opening quote. `high` is a high surrogate
that waits for its partner, `lone` the first fault that does not stop a reader
that only passes over the string, and `done` the text so far, backwards. -/
def readString (high : Option Nat) (lone : Option Fault) (done : List Char) :
    List Char → Token × List Char
  | [] => cutString lone .incomplete []
  | '"' :: rest =>
    match unpaired high lone with
    | some fault => (.string (.error fault), rest)
    | none => (.string (.ok (String.ofList done.reverse)), rest)
  | '\\' :: rest =>
    match rest with
    | [] => cutString lone .incomplete []
    | 'u' :: a :: b :: c :: d :: rest =>
      match hexQuad a b c d with
      | none => cutString lone .malformed rest
      | some n =>
        match high with
        | some h =>
          if isLowSurrogate n then readString none lone (joinSurrogates h n :: done) rest
          else readString (if isHighSurrogate n then some n else none)
            (some (lone.getD .malformed)) done rest
        | none =>
          if isLowSurrogate n then readString none (some (lone.getD .malformed)) done rest
          else if isHighSurrogate n then readString (some n) lone done rest
          else readString none lone (Char.ofNat n :: done) rest
    | 'u' :: rest =>
      cutString lone
        (if (String.ofList rest).utf8ByteSize < 4 then .incomplete else .malformed) rest
    | e :: rest =>
      match escaped? e with
      | some c => readString none (unpaired high lone) (c :: done) rest
      | none => cutString (unpaired high lone) .malformed rest
  | c :: rest =>
    if c.toNat < 32 then cutString (unpaired high lone) .malformed rest
    else readString none (unpaired high lone) (c :: done) rest

def read (c : Char) (rest : List Char) : Token × List Char :=
  match c with
  | '[' => (.openArray, rest)
  | ']' => (.closeArray, rest)
  | '{' => (.openObject, rest)
  | '}' => (.closeObject, rest)
  | ',' => (.comma, rest)
  | ':' => (.colon, rest)
  | '"' => readString none none [] rest
  | 'n' => readWord .null ['u', 'l', 'l'] rest
  | 't' => readWord (.bool true) ['r', 'u', 'e'] rest
  | 'f' => readWord (.bool false) ['a', 'l', 's', 'e'] rest
  | '-' => readNumber true rest
  | c => if c.isDigit then readNumber false (c :: rest) else (.broken .other (.of .malformed), rest)

end Token

end DeployCheck.Json
