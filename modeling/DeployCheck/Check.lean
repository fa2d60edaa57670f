import DeployCheck.Model

/-!
# Access to resources with names that are known at runtime only

Of an existing resource whose name is known at runtime only, the name and the
properties that are readable before the deployment may be read, and no function
that needs inlining may be called. A string with holes may not select a property
of it at all.
-/

set_option autoImplicit false

namespace DeployCheck

namespace Access

/-- Whether a property may be read although the name is known at runtime only. -/
def allowsProperty (a : Access) (name : String) : Bool :=
  Name.same name ObjectType.nameProperty || a.body.isReadable name

def message (a : Access) : String :=
  let name := a.symbol.name
  let properties :=
    Text.fill " the accessible properties of \"{0}\" include {1}."
      [name, Text.quotedList a.properties]
  let functions :=
    if a.functions.isEmpty then ""
    else Text.fill " The accessible functions of \"{0}\" include {1}."
      [name, Text.quotedList a.functions]
  Text.fill Rule.runtimeAccess.template [properties, functions]

def members (a : Access) : AccessibleMembers := ⟨a.symbol.name, a.properties, a.functions⟩

def diagnostic (a : Access) (file : String) (span : Span) : Diagnostic :=
  { Diagnostic.atSpan file span Rule.runtimeAccess.severity Rule.runtimeAccess.code a.message with
    members := some a.members }

end Access

namespace Model

def constrained? (m : Model) (base : NodeId) : Option Access :=
  (m.access? base).filter Access.isRuntimeConstrained

def forbidsIndex (m : Model) (a : Access) (index : NodeId) : Bool :=
  match m.tree.arena.data? index with
  | some (.string segments []) => !a.allowsProperty (segments.head?.getD "")
  | some (.string _ (_ :: _)) => true
  | _ => false

/-- The access to a constrained resource that a node makes against the rules. -/
def violation? (m : Model) (id : NodeId) : Option Access := do
  match ← m.tree.arena.data? id with
  | .property base name => (m.constrained? base).filter fun a => !a.allowsProperty name.name
  | .index base index => (m.constrained? base).filter fun a => m.forbidsIndex a index
  | .instanceCall base name _ =>
    (m.constrained? base).filter fun a =>
      (a.body.function? name.name).any (·.flags.requiresInlining)
  | _ => none

/-- The diagnostics of all forbidden accesses, each before those in its parts. -/
def check (m : Model) : List Diagnostic :=
  (m.tree.arena.visit m.tree.root).filterMap fun id =>
    (m.violation? id).map fun a => a.diagnostic m.tree.file (m.tree.arena.span id)

end Model

end DeployCheck
