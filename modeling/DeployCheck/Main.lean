import DeployCheck.CommandLine.Report

/-!
# The program

Compiles the files on the command line and prints the report.
-/

set_option autoImplicit false

namespace DeployCheck.CommandLine

def readFile (path : String) : IO (Except FileError String) := do
  try
    let bytes ← IO.FS.readBinFile path
    match String.fromUTF8? bytes with
    | some text => return .ok text
    | none => return .error .notText
  catch
    | .inappropriateType .. => return .error .isDirectory
    | .noFileOrDirectory .. => return .error .notFound
    | e => return .error (.other (toString e))

def readAll : List String → IO (List (String × Except FileError String))
  | [] => return []
  | path :: rest => do
    let content ← readFile path
    return (path, content) :: (← readAll rest)

def filesOf (contents : List (String × Except FileError String)) : Files := fun path =>
  (contents.lookup path).getD (.error .notFound)

def usage : String :=
  "Usage: deploycheck [OPTIONS] <FILES>...\n\n" ++
  "Validate member access on runtime-named existing resources\n\n" ++
  "      --types <CATALOG>  Resource type catalog merged over each unit's inline types\n" ++
  "      --format <FORMAT>  Diagnostic output format: text, json\n" ++
  "      --no-color         Disable colored output\n" ++
  "  -j, --jobs <JOBS>      Number of worker threads\n" ++
  "  -h, --help             Print help\n" ++
  "  -V, --version          Print version"

def start (args : List String) : IO UInt32 := do
  match Options.ofArgs args with
  | .error .displayHelp => do
    IO.println usage
    return 0
  | .error .displayVersion => do
    IO.println "deploycheck"
    return 0
  | .error e => do
    IO.eprintln ("error: " ++ e.name ++ "\n\n" ++ usage)
    return 2
  | .ok options => do
    let contents ← readAll (options.types.toList ++ options.files)
    match run (filesOf contents) options with
    | .error e => do
      IO.eprintln ("error: " ++ e.message)
      return UInt32.ofNat setupExitCode
    | .ok summary => do
      let report := summary.report options (← (← IO.getStdout).isTty)
      if !report.isEmpty then IO.println report
      return UInt32.ofNat summary.exitCode

end DeployCheck.CommandLine

def main (args : List String) : IO UInt32 := DeployCheck.CommandLine.start args
