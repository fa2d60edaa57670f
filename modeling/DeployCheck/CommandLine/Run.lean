import DeployCheck.CommandLine.Options
import DeployCheck.CompilationUnit

/-!
# Runs

A run compiles the files that are named on the command line. A file that cannot
be compiled does not stop the others; a catalog that cannot be loaded stops all.
-/

set_option autoImplicit false

namespace DeployCheck.CommandLine

inductive FileError where
  | notFound
  | isDirectory
  | notText
  | other (message : String)
  deriving DecidableEq

def FileError.message : FileError → String
  | .notFound => "No such file or directory (os error 2)"
  | .isDirectory => "Is a directory (os error 21)"
  | .notText => "stream did not contain valid UTF-8"
  | .other message => message

inductive Failure where
  | unreadable (path : String) (error : FileError)
  | json (error : Json.ReadError)
  | program (error : CompileError)
  deriving DecidableEq

/-- The message with its causes. Messages that name their cause are followed by
it once more. -/
def Failure.message : Failure → String
  | .unreadable path e => "failed to read " ++ path ++ ": " ++ e.message
  | .json e => "invalid compilation unit JSON: " ++ e.summary ++ ": " ++ e.summary
  | .program (.ambiguous e) => "invalid program document: " ++ e.message ++ ": " ++ e.message
  | .program (.model e) => "malformed syntax tree: " ++ e.message ++ ": " ++ e.message

inductive RunError where
  | loadUnit (path : String) (failure : Failure)
  | compileUnit (file : String) (failure : Failure)
  | loadCatalog (path : String) (failure : Failure)
  deriving DecidableEq

def RunError.message : RunError → String
  | .loadUnit path f => "failed to load " ++ path ++ ": " ++ f.message
  | .compileUnit file f => "failed to compile " ++ file ++ ": " ++ f.message
  | .loadCatalog path f => "failed to load type catalog " ++ path ++ ": " ++ f.message

abbrev Files := String → Except FileError String

structure FailedUnit where
  path : String
  error : RunError

structure Summary where
  outputs : List Compiled
  failures : List FailedUnit

namespace Summary

def errorCount (s : Summary) : Nat :=
  ((s.outputs.flatMap Compiled.diagnostics).filter Diagnostic.isError).length

/-- Two if a file could not be compiled, one if there are errors, else zero. -/
def exitCode (s : Summary) : Nat :=
  if !s.failures.isEmpty then 2 else if s.errorCount > 0 then 1 else 0

def add (s : Summary) (path : String) : Except RunError Compiled → Summary
  | .ok c => { s with outputs := s.outputs ++ [c] }
  | .error e => { s with failures := s.failures ++ [⟨path, e⟩] }

end Summary

def setupExitCode : Nat := 2

def readText (files : Files) (path : String) : Except Failure String :=
  (files path).mapError (.unreadable path)

def compileFile (files : Files) (overrides : Option Catalog) (path : String) :
    Except RunError Compiled := do
  let text ← (readText files path).mapError (.loadUnit path)
  let u ← (CompilationUnit.ofText text).mapError fun e => .loadUnit path (.json e)
  (u.compile overrides).mapError fun e => .compileUnit u.file (.program e)

def loadCatalog (files : Files) (path : String) : Except RunError Catalog := do
  let text ← (readText files path).mapError (.loadCatalog path)
  (Catalog.ofText text).mapError fun e => .loadCatalog path (.json e)

def run (files : Files) (options : Options) : Except RunError Summary := do
  let overrides ← options.types.mapM (loadCatalog files)
  return options.files.foldl (fun s path => s.add path (compileFile files overrides path))
    ⟨[], []⟩

end DeployCheck.CommandLine
