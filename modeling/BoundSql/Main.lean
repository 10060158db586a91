import BoundSql.Cli.Run

/-!
# The program

The outer layer of the command line: the files of the machine, its environment and its streams.

## Main definitions

* `main` — one run of the program.
-/

namespace BoundSql

/-- The cause of a failure of the system, by its number. -/
def FileError.ofSystem (error : IO.Error) : FileError :=
  match error with
  | .noFileOrDirectory _ _ _ => .notFound
  | .alreadyExists _ _ _ => .alreadyExists
  | .inappropriateType _ 21 _ => .isDirectory
  | .inappropriateType _ _ _ => .notDirectory
  | _ => .other (toString error)

/-- The result of an action, or the cause of its failure. -/
def attempt {α : Type} (action : IO α) : IO (Except FileError α) := do
  try
    return .ok (← action)
  catch error => return .error (.ofSystem error)

instance : FileSystem IO where
  pathExists path := return (← attempt (IO.FS.realPath path)).toOption.isSome
  readFile path := attempt (IO.FS.readBinFile path)
  makeDirectories path := attempt (IO.FS.createDirAll path)
  writeFile path content := attempt (IO.FS.writeBinFile path content)

/-- The lines that tell why a run failed. -/
def Diagnostic.lines (diagnostic : Diagnostic) : String :=
  diagnostic.code ++ "\n\n  × " ++ diagnostic.message ++ "\n" ++
    match diagnostic.help with
    | some help => "  help: " ++ help ++ "\n"
    | none => ""

end BoundSql

/-- One run of the program. -/
def main (words : List String) : IO UInt32 := do
  let report : BoundSql.Cli.Report ←
    BoundSql.Cli.run (← IO.getEnv BoundSql.Cli.schemaVariable) words
  IO.print report.output
  IO.eprint report.log
  match report.failure? with
  | some diagnostic => IO.eprint diagnostic.lines
  | none => pure ()
  return report.status.toUInt32
