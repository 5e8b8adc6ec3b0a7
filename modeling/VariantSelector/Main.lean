import VariantSelector.CommandLine.Report

/-!
The command line: reads the configuration file its arguments name, and prints the report of the
run.
-/

namespace VariantSelector.CommandLine

/-- The file that the arguments name. -/
def configPath? (arguments : List Text) : Option Text :=
  match parse arguments with
  | .ok (.run options) => options.config
  | _ => none

/-- Reads a file as text. -/
def readFile (path : Text) : IO (Except ReadFault Text) := do
  try
    return decodeText (← IO.FS.readBinFile (String.ofList path))
  catch
    | .inappropriateType _ code _ =>
      return .error (if code = 21 then .isDirectory else .notDirectory)
    | _ => return .error .notFound

end VariantSelector.CommandLine

open VariantSelector CommandLine

/-- Runs the command. -/
def main (arguments : List String) : IO UInt32 := do
  let arguments := arguments.map String.toList
  let content ←
    match configPath? arguments with
    | some path => readFile path
    | none => pure (.error .notFound)
  let report := run (fun _ => content) arguments
  (← IO.getStdout).putStr (String.ofList report.out)
  (← IO.getStderr).putStr (String.ofList report.err)
  return report.exitCode.toUInt32
