import DeployCheck.Json.Token
import DeployCheck.Json.Value

/-!
# Reading a JSON text

A reading is what can be made out of a text, up to the place where the text
stops being JSON. Readers of typed data follow a reading in the order of the
text, so the first thing that is wrong for them is what they report.

The text is read by a machine that takes one token after the other. Its state
holds the containers that are still open around the place it has reached.
-/

set_option autoImplicit false

namespace DeployCheck.Json

inductive Key where
  | text (text : StringText)
  | broken (cause : Break)

/-- A value as far as the text goes. A container that is cut off says why. -/
inductive Reading where
  | null
  | bool (value : Bool)
  | int (value : Int)
  | float (inRange : Bool)
  | string (text : StringText)
  | array (items : List Reading) (cut : Option Break)
  | object (members : List (Key × Reading)) (cut : Option Break)
  | broken (start : Start) (cause : Break)

namespace Reading

/-- A container around a place where a value is due, with what stands before
that place, backwards. -/
inductive Hole where
  | item (before : List Reading)
  | member (before : List (Key × Reading)) (key : Key)

inductive State where
  | value (around : List Hole)
  | firstItem (around : List Hole)
  | afterItem (around : List Hole) (items : List Reading)
  | firstKey (around : List Hole)
  | key (around : List Hole) (members : List (Key × Reading))
  | colon (around : List Hole) (members : List (Key × Reading)) (key : Key)
  | afterMember (around : List Hole) (members : List (Key × Reading))
  | done (result : Reading)
  | trailing (result : Reading)
  | stopped (result : Reading)

def complete (around : List Hole) (v : Reading) : State :=
  match around with
  | [] => .done v
  | .item before :: rest => .afterItem rest (v :: before)
  | .member before key :: rest => .afterMember rest ((key, v) :: before)

def enclose : List Hole → Reading → Reading
  | [], v => v
  | .item before :: rest, v => enclose rest (.array (v :: before).reverse none)
  | .member before key :: rest, v => enclose rest (.object ((key, v) :: before).reverse none)

def stopAt (around : List Hole) (v : Reading) : State := .stopped (enclose around v)

def head : Token → Reading
  | .null => .null
  | .bool b => .bool b
  | .int n => .int n
  | .float inRange => .float inRange
  | .string text => .string text
  | .openArray => .array [] none
  | .openObject => .object [] none
  | .broken start cause => .broken start cause
  | .comma | .colon | .closeArray | .closeObject => .broken .other (.of .malformed)

def stepValue (around : List Hole) : Token → State
  | .openArray => .firstItem around
  | .openObject => .firstKey around
  | t => match head t with
    | .broken start cause => stopAt around (.broken start cause)
    | v => complete around v

def keyless (members : List (Key × Reading)) (cause : Break) : Reading :=
  .object ((.broken cause, .broken .nothing cause) :: members).reverse none

def stepKey (around : List Hole) (members : List (Key × Reading)) : Token → State
  | .string text => .colon around members (.text text)
  | .broken .quote cause => stopAt around (keyless members cause)
  | _ => stopAt around (keyless members (.of .malformed))

def step : State → Token → State
  | .value around, t => stepValue around t
  | .firstItem around, .closeArray => complete around (.array [] none)
  | .firstItem around, t => stepValue (.item [] :: around) t
  | .afterItem around items, .comma => .value (.item items :: around)
  | .afterItem around items, .closeArray => complete around (.array items.reverse none)
  | .afterItem around items, _ =>
    stopAt around (.array items.reverse (some (.of .malformed)))
  | .firstKey around, .closeObject => complete around (.object [] none)
  | .firstKey around, t => stepKey around [] t
  | .key around members, t => stepKey around members t
  | .colon around members key, .colon => .value (.member members key :: around)
  | .colon around members key, _ =>
    stopAt (.member members key :: around) (.broken .other (.of .malformed))
  | .afterMember around members, .comma => .key around members
  | .afterMember around members, .closeObject => complete around (.object members.reverse none)
  | .afterMember around members, _ =>
    stopAt around (.object members.reverse (some (.of .malformed)))
  | .done result, _ => .trailing result
  | .trailing result, _ => .trailing result
  | .stopped result, _ => .stopped result

def finish : State → Reading × Bool
  | .value around => (enclose around (.broken .nothing (.of .incomplete)), false)
  | .firstItem around => (enclose around (.array [] (some (.of .incomplete))), false)
  | .afterItem around items =>
    (enclose around (.array items.reverse (some (.of .incomplete))), false)
  | .firstKey around => (enclose around (.object [] (some (.of .incomplete))), false)
  | .key around members => (enclose around (keyless members (.of .incomplete)), false)
  | .colon around members key =>
    (enclose (.member members key :: around) (.broken .nothing (.of .incomplete)), false)
  | .afterMember around members =>
    (enclose around (.object members.reverse (some (.of .incomplete))), false)
  | .done result => (result, false)
  | .trailing result => (result, true)
  | .stopped result => (result, false)

/-- Run the machine on a text. Every token takes a character, so the length of
the text is enough fuel. -/
def run : Nat → State → List Char → State
  | _, state, [] => state
  | 0, state, _ :: _ => state
  | fuel + 1, state, c :: rest =>
    if Token.isSpace c then run fuel state rest
    else match state with
      | .trailing result => .trailing result
      | .stopped result => .stopped result
      | state => run fuel (step state (Token.read c rest).1) (Token.read c rest).2

def ofText (text : String) : Reading × Bool :=
  let cs := text.toList
  finish (run cs.length (.value []) cs)

/-- The fault that a reader meets who expected something else here. The
beginning of a container already shows that it is not what was expected; other
values are read to their end first. -/
def unexpected : Reading → ReadError
  | .broken _ cause => .fault cause.strict
  | .float false => .malformed
  | .string (.error fault) => .fault fault
  | _ => .mismatch .type

def Key.read : Key → Except Fault String
  | .text text => text
  | .broken cause => .error cause.strict

mutual

/-- The value of a reading. `room` is the number of containers that may still
be opened. -/
def value (room : Nat) : Reading → Except Fault Value
  | .null => .ok .null
  | .bool b => .ok (.bool b)
  | .int n => .ok (.int n)
  | .float inRange => if inRange then .ok .float else .error .malformed
  | .string text => text.map .string
  | .array items cut => match room with
    | 0 => .error .malformed
    | room + 1 => do
      let vs ← itemValues room items
      match cut with
      | some cause => .error cause.strict
      | none => .ok (.array vs)
  | .object members cut => match room with
    | 0 => .error .malformed
    | room + 1 => do
      let vs ← memberValues room members
      match cut with
      | some cause => .error cause.strict
      | none => .ok (.object vs)
  | .broken _ cause => .error cause.strict

def itemValues (room : Nat) : List Reading → Except Fault (List Value)
  | [] => .ok []
  | r :: rest => do
    let v ← value room r
    let vs ← itemValues room rest
    return v :: vs

def memberValues (room : Nat) : List (Key × Reading) → Except Fault (List (String × Value))
  | [] => .ok []
  | (key, r) :: rest => do
    let k ← Key.read key
    let v ← value room r
    let vs ← memberValues room rest
    return (k, v) :: vs

end

mutual

/-- Pass over a reading that nobody wants. Nesting, unpaired surrogates and
large numbers do not matter then. -/
def skip : Reading → Except Fault Unit
  | .array items cut => do
    skipItems items
    match cut with
    | some cause => .error cause.lenient
    | none => .ok ()
  | .object members cut => do
    skipMembers members
    match cut with
    | some cause => .error cause.lenient
    | none => .ok ()
  | .broken _ cause => .error cause.lenient
  | _ => .ok ()

def skipItems : List Reading → Except Fault Unit
  | [] => .ok ()
  | r :: rest => do
    skip r
    skipItems rest

def skipMembers : List (Key × Reading) → Except Fault Unit
  | [] => .ok ()
  | (.broken cause, _) :: _ => .error cause.lenient
  | (.text _, r) :: rest => do
    skip r
    skipMembers rest

end

end Reading

def nestingLimit : Nat := 127

end DeployCheck.Json
