import DeployCheck.Text.Name

/-!
# Type references

A resource names its type by segments with slashes between them and an optional
version after the first `@`. A reference of one segment is relative: a nested
resource completes it from the reference of the resource around it.
-/

set_option autoImplicit false

namespace DeployCheck

structure TypeReference where
  segments : List String
  version : Option String
  deriving DecidableEq

namespace TypeReference

def cutVersion : List Char → List Char × Option (List Char)
  | [] => ([], none)
  | c :: cs =>
    if c = '@' then ([], some cs)
    else ((c :: (cutVersion cs).1), (cutVersion cs).2)

/-- Read a reference. Empty segments and an empty version are refused. -/
def parse? (text : String) : Option TypeReference :=
  let (types, version) := cutVersion text.toList
  let segments := types.splitOn '/'
  if version = some [] || segments.any List.isEmpty then none
  else some ⟨segments.map String.ofList, version.map String.ofList⟩

/-- A text that cannot be read counts as one segment without a version. -/
def verbatim (text : String) : TypeReference := ⟨[text], none⟩

def text (r : TypeReference) : String :=
  "/".intercalate r.segments ++ match r.version with
    | some version => "@" ++ version
    | none => ""

instance : ToString TypeReference := ⟨text⟩

def key (r : TypeReference) : String := Name.key r.text

def isRelative (r : TypeReference) : Bool := r.segments.length == 1

def qualify (child parent : TypeReference) : TypeReference where
  segments := parent.segments ++ child.segments
  version := child.version.or parent.version

/-- The reference that a written type denotes inside a resource of a type, or
outside of all resources. -/
def ofText (text : String) (parent : Option TypeReference) : TypeReference :=
  match parse? text, parent with
  | none, _ => verbatim text
  | some r, none => r
  | some r, some p => if r.isRelative then r.qualify p else r

end TypeReference

end DeployCheck
