import DeployCheck.Json.Reading

/-!
# Records

A record is written as an object of named fields, or as an array of its fields
in order. A form says which fields a record has and how each is read. Whatever
is wrong is reported where a reader who goes through the text meets it first;
missing fields come last, in the order of the form.
-/

set_option autoImplicit false

namespace DeployCheck.Json

/-- An error, and the number of entries of the record before it. -/
structure Located where
  place : Nat
  error : ReadError

def Located.first (a b : Located) : Located := if b.place < a.place then b else a

/-- What a record offers: its field of a number and name, with its place, or the
error of a field that is missing. -/
structure Fields (ν : Type) where
  find : Nat → String → Option (Nat × ν)
  absent : Nat → String → Located

structure Form (ν α : Type) where
  names : List String
  read : Fields ν → Except Located α

namespace Fields

variable {ν : Type}

def drop (n : Nat) (f : Fields ν) : Fields ν where
  find i name := f.find (n + i) name
  absent i name := f.absent (n + i) name

def placed (name : String) : Nat → List (Except Fault String × ν) → Option (Nat × ν)
  | _, [] => none
  | place, (.ok key, v) :: rest =>
    if key = name then some (place, v) else placed name (place + 1) rest
  | place, (.error _, _) :: rest => placed name (place + 1) rest

def ofMembers (members : List (Except Fault String × ν)) : Fields ν where
  find _ name := placed name 0 members
  absent _ name := ⟨members.length, .mismatch (.missingField name)⟩

def ofItems (items : List ν) : Fields ν where
  find i _ := items[i]?.map fun v => (i, v)
  absent i _ := ⟨i, .mismatch (.length i)⟩

end Fields

namespace Form

variable {ν α β : Type}

def both (f : Except Located (α → β)) (x : Except Located α) : Except Located β :=
  match f, x with
  | .ok f, .ok a => .ok (f a)
  | .ok _, .error e => .error e
  | .error e, .ok _ => .error e
  | .error e, .error e' => .error (e.first e')

instance : Applicative (Form ν) where
  pure a := ⟨[], fun _ => .ok a⟩
  seq f x :=
    ⟨f.names ++ (x ()).names,
     fun fields => both (f.read fields) ((x ()).read (fields.drop f.names.length))⟩

def fieldOr (name : String) (absent : Located → Except Located α)
    (read : ν → Except ReadError α) : Form ν α where
  names := [name]
  read fields := match fields.find 0 name with
    | some (place, v) => match read v with
      | .ok a => .ok a
      | .error e => .error ⟨place, e⟩
    | none => absent (fields.absent 0 name)

def required (name : String) (read : ν → Except ReadError α) : Form ν α :=
  fieldOr name .error read

def optional (name : String) (default : α) (read : ν → Except ReadError α) : Form ν α :=
  fieldOr name (fun _ => .ok default) read

/-- The first entry whose key is broken, repeated or not in the form. Entries
that are not in the form are passed over if a way to do so is given. -/
def keyFault? (names : List String) (pass : Option (ν → Except Fault Unit)) :
    List String → Nat → List (Except Fault String × ν) → Option Located
  | _, _, [] => none
  | _, place, (.error fault, _) :: _ => some ⟨place, .fault fault⟩
  | seen, place, (.ok key, v) :: rest =>
    if key ∈ names then
      if key ∈ seen then some ⟨place, .mismatch (.duplicateField key)⟩
      else keyFault? names pass (key :: seen) (place + 1) rest
    else match pass with
      | none => some ⟨place, .mismatch (.unknownField key)⟩
      | some pass => match pass v with
        | .error fault => some ⟨place, .fault fault⟩
        | .ok () => keyFault? names (some pass) seen (place + 1) rest

def run (form : Form ν α) (fault : Option Located) (fields : Fields ν) : Except ReadError α :=
  match fault, form.read fields with
  | none, .ok a => .ok a
  | none, .error e => .error e.error
  | some e, .ok _ => .error e.error
  | some e, .error e' => .error (e.first e').error

def ofValue (form : Form Value α) : Value → Except ReadError α
  | .object members =>
    let members := members.map fun (key, v) => (.ok key, v)
    form.run (keyFault? form.names none [] 0 members) (.ofMembers members)
  | .array items =>
    let surplus : Option Located :=
      if items.length ≤ form.names.length then none
      else some ⟨form.names.length, .mismatch (.length items.length)⟩
    form.run surplus (.ofItems items)
  | _ => .error (.mismatch .type)

end Form

/-- A way to read data from a text, given how many containers may be opened. -/
abbrev Reader (α : Type) := Nat → Reading → Except ReadError α

namespace Reader

variable {α : Type}

def cutFault? (place : Nat) (cut : Option Break) : Option Located :=
  cut.map fun cause => ⟨place, .fault cause.strict⟩

/-- Read the items of an array as the fields of a record. After the last field
only the end of the array may follow. -/
def runItems (form : Form Reading α) (items : List Reading) (cut : Option Break) :
    Except ReadError α :=
  let fault :=
    if items.length ≤ form.names.length then cutFault? items.length cut
    else some ⟨form.names.length, .malformed⟩
  form.run fault (.ofItems items)

def record (refuse : Bool) (form : Nat → Form Reading α) : Reader α
  | room, .object members cut => match room with
    | 0 => .error .malformed
    | room + 1 =>
      let members := members.map fun (key, v) => (Reading.Key.read key, v)
      let form := form room
      let pass := if refuse then none else some Reading.skip
      let fault := (Form.keyFault? form.names pass [] 0 members).or (cutFault? members.length cut)
      form.run fault (.ofMembers members)
  | room, .array items cut => match room with
    | 0 => .error .malformed
    | room + 1 => runItems (form room) items cut
  | _, r => .error r.unexpected

def tuple (form : Nat → Form Reading α) : Reader α
  | room, .array items cut => match room with
    | 0 => .error .malformed
    | room + 1 => runItems (form room) items cut
  | _, r => .error r.unexpected

def list (item : Reader α) : Reader (List α)
  | room, .array items cut => match room with
    | 0 => .error .malformed
    | room + 1 => do
      let as ← items.mapM (item room)
      match cut with
      | some cause => .error (.fault cause.strict)
      | none => .ok as
  | _, r => .error r.unexpected

def string : Reader String
  | _, .string (.ok s) => .ok s
  | _, r => .error r.unexpected

def nullable (read : Reader α) : Reader (Option α)
  | _, .null => .ok none
  | room, r => (read room r).map some

def offset : Reader Nat
  | _, .int n => if 0 ≤ n ∧ n < Word.count32 then .ok n.toNat else .error (.mismatch .value)
  | _, r => .error r.unexpected

def variant (ofName? : String → Option α) (name : String) : Except ReadError α :=
  match ofName? name with
  | some a => .ok a
  | none => .error (.mismatch (.unknownVariant name))

def oneOf (ofName? : String → Option α) : Reader α
  | _, .string (.ok name) => variant ofName? name
  | _, .string (.error fault) => .error (.fault fault)
  | _, .broken .other _ => .error .malformed
  | _, .broken _ cause => .error (.fault cause.strict)
  | room, .object members cut => match room, members with
    | 0, _ => .error .malformed
    | _ + 1, [] => match cut with
      | some cause => .error (.fault cause.strict)
      | none => .error .malformed
    | _ + 1, (.broken cause, _) :: _ => .error (.fault cause.strict)
    | _ + 1, (.text (.error fault), _) :: _ => .error (.fault fault)
    | _ + 1, (.text (.ok name), v) :: rest => do
      let a ← variant ofName? name
      match v, rest, cut with
      | .null, [], none => .ok a
      | .null, [], some cause => .error (.fault cause.strict)
      | .null, _ :: _, _ => .error .malformed
      | v, _, _ => .error v.unexpected
  | _, _ => .error .malformed

def text (read : Reader α) (text : String) : Except ReadError α := do
  let (reading, trailing) := Reading.ofText text
  let a ← read nestingLimit reading
  if trailing then .error .malformed else .ok a

end Reader

end DeployCheck.Json
