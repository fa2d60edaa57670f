import DeployCheck.Json.Record

/-!
# Tagged values

A value of several kinds names its kind in the field `kind`, or as the first
item of an array. In a text the kind is a name; inside a value that has been
read already it may also be the number of the kind. What remains without the
kind is a record.
-/

set_option autoImplicit false

namespace DeployCheck.Json

/-- Kinds that a tag can name, in the order in which they are numbered. -/
class Tag (κ : Type) where
  all : List κ
  name : κ → String

namespace Tag

variable {κ : Type} [Tag κ]

def ofName? (name : String) : Option κ := (Tag.all (κ := κ)).find? fun k => Tag.name k == name

def field : String := "kind"

def ofReading : Reading → Except ReadError κ
  | .string (.ok name) => Reader.variant ofName? name
  | r => .error r.unexpected

def ofValue : Value → Except ReadError κ
  | .string name => Reader.variant ofName? name
  | .int n =>
    if n < 0 then .error (.mismatch .type)
    else match (Tag.all (κ := κ))[n.toNat]? with
      | some k => .ok k
      | none => .error (.mismatch .value)
  | _ => .error (.mismatch .type)

def ofMembers (room : Nat) : Option κ → List (String × Value) → List (Key × Reading) →
    Except ReadError (Option κ × List (String × Value))
  | tag, before, [] => .ok (tag, before.reverse)
  | tag, before, (key, r) :: rest => do
    let key ← (Reading.Key.read key).mapError .fault
    if key = field then
      if tag.isSome then .error (.mismatch (.duplicateField field))
      else
        let k ← ofReading r
        ofMembers room (some k) before rest
    else
      let v ← (r.value room).mapError .fault
      ofMembers room tag ((key, v) :: before) rest

def ofEntries : Option κ → List (String × Value) → List (String × Value) →
    Except ReadError (Option κ × List (String × Value))
  | tag, before, [] => .ok (tag, before.reverse)
  | tag, before, (key, v) :: rest =>
    if key = field then
      if tag.isSome then .error (.mismatch (.duplicateField field))
      else do
        let k ← ofValue v
        ofEntries (some k) before rest
    else ofEntries tag ((key, v) :: before) rest

def orMissing (tag : Option κ) (content : Value) : Except ReadError (κ × Value) :=
  match tag with
  | some k => .ok (k, content)
  | none => .error (.mismatch (.missingField field))

def cut (cause : Option Break) : Except ReadError Unit :=
  match cause with
  | some cause => .error (.fault cause.strict)
  | none => .ok ()

def split : Reader (κ × Value)
  | room, .object members cause => match room with
    | 0 => .error .malformed
    | room + 1 => do
      let (tag, rest) ← ofMembers room none [] members
      cut cause
      orMissing tag (.object rest)
  | room, .array items cause => match room, items with
    | 0, _ => .error .malformed
    | _ + 1, [] => do
      cut cause
      orMissing none .null
    | room + 1, first :: rest => do
      let k ← ofReading first
      let vs ← (Reading.itemValues room rest).mapError .fault
      cut cause
      return (k, .array vs)
  | _, r => .error r.unexpected

def splitValue : Value → Except ReadError (κ × Value)
  | .object members => do
    let (tag, rest) ← ofEntries none [] members
    orMissing tag (.object rest)
  | .array [] => orMissing none .null
  | .array (first :: rest) => do
    let k ← ofValue first
    return (k, .array rest)
  | _ => .error (.mismatch .type)

end Tag

namespace Value

variable {α : Type}

def asString : Value → Except ReadError String
  | .string s => .ok s
  | _ => .error (.mismatch .type)

def asBool : Value → Except ReadError Bool
  | .bool b => .ok b
  | _ => .error (.mismatch .type)

def asInteger : Value → Except ReadError Int
  | .int n => if -Word.count64 ≤ 2 * n ∧ 2 * n < Word.count64 then .ok n else .error (.mismatch .value)
  | _ => .error (.mismatch .type)

def asOffset : Value → Except ReadError Nat
  | .int n => if 0 ≤ n ∧ n < Word.count32 then .ok n.toNat else .error (.mismatch .value)
  | _ => .error (.mismatch .type)

def nullable (read : Value → Except ReadError α) : Value → Except ReadError (Option α)
  | .null => .ok none
  | v => (read v).map some

def asList (item : Value → Except ReadError α) : Value → Except ReadError (List α)
  | .array items => items.mapM item
  | _ => .error (.mismatch .type)

def asTuple (form : Form Value α) : Value → Except ReadError α
  | .array items => form.ofValue (.array items)
  | _ => .error (.mismatch .type)

/-- One of several names, written as a string or as the only key of an object
that maps it to null or to an empty object. -/
def asOneOf (ofName? : String → Option α) : Value → Except ReadError α
  | .string name => Reader.variant ofName? name
  | .object [(name, v)] => do
    let a ← Reader.variant ofName? name
    match v with
    | .null | .object [] => .ok a
    | _ => .error (.mismatch .type)
  | .object _ => .error (.mismatch .value)
  | _ => .error (.mismatch .type)

end Value

end DeployCheck.Json
