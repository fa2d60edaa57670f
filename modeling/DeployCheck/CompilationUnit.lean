import DeployCheck.Check
import DeployCheck.Program.Read
import DeployCheck.Tree.Lowering
import DeployCheck.Types.Read

/-!
# Compilation units

A unit is a program with the name of its file, types of its own, and the source
text if it is known. The text serves only to tell lines and columns.
-/

set_option autoImplicit false

namespace DeployCheck

open Json

structure CompilationUnit where
  file : String
  source : Option String
  types : List TypeDefinition
  program : Program

inductive CompileError where
  | ambiguous (string : AmbiguousString)
  | model (error : ModelError)
  deriving DecidableEq

def CompileError.message : CompileError → String
  | .ambiguous e => e.message
  | .model e => e.message

structure Compiled where
  file : String
  source : Option String
  diagnostics : List Diagnostic

def Compiled.hasErrors (c : Compiled) : Bool := c.diagnostics.any Diagnostic.isError

namespace CompilationUnit

def reader : Reader CompilationUnit :=
  Reader.record true fun room =>
    CompilationUnit.mk <$> Form.required "file" (Reader.string room) <*>
      Form.optional "source" none (Reader.nullable Reader.string room) <*>
      Form.optional "types" [] (Reader.list TypeDefinition.reader room) <*>
      Form.required "program" (Reader.list Declaration.reader room)

def ofText (text : String) : Except ReadError CompilationUnit := Reader.text reader text

/-- The builtin types, then those of the unit, then overriding ones. -/
def catalog (u : CompilationUnit) (overrides : Option Catalog) : Catalog :=
  let own := Catalog.builtin.define u.types
  match overrides with
  | some c => own.extend c
  | none => own

/-- The diagnostics of the model and of the check, in the order of their starts. -/
def diagnostics (m : Model) : List Diagnostic :=
  (m.diagnostics ++ m.check).mergeSort fun a b => a.start ≤ b.start

def compile (u : CompilationUnit) (overrides : Option Catalog) : Except CompileError Compiled := do
  let tree ← (Tree.ofProgram u.file u.program).mapError .ambiguous
  let model ← (Model.build tree (u.catalog overrides)).mapError .model
  return ⟨u.file, u.source, diagnostics model⟩

end CompilationUnit

end DeployCheck
