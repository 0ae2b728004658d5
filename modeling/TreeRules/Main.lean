import TreeRules.Program.Run

/-!
# Main — the command line

Reads the files that the arguments name, runs the program on what they hold and prints what it
leaves behind.
-/

namespace TreeRules

/-- What is found under a path; `none` if nothing is. -/
def readContent (path : String) : IO (Option FileContent) := do
  try
    let bytes ← IO.FS.readBinFile path
    match String.fromUTF8? bytes with
    | some text => return some (.text text)
    | none => return some .noText
  catch
    | .noFileOrDirectory .. => return none
    | _ => return some .directory

/-- What is found under each path, once. -/
def readAll : List String → IO (List (String × FileContent))
  | [] => return []
  | path :: rest => do
    let others ← readAll rest
    match ← readContent path with
    | some content => return (path, content) :: others
    | none => return others

/-- The paths that a command line names. -/
def namedPaths (arguments : List String) : List String :=
  match Arguments.parse arguments with
  | .ok a => a.config.toList ++ [a.document, a.rules]
  | .error _ => []

/-- Whether styles are shown: on a terminal, unless the environment forbids it. -/
def showsStyles : IO Bool := do
  if (← IO.getEnv "NO_COLOR").isSome then return false
  (← IO.getStdout).isTty

/-- One run of the program in the world around it. -/
def runProgram (arguments : List String) : IO UInt32 := do
  let contents ← readAll (namedPaths arguments)
  let ending := Program.run (fun path => contents.lookup path) (← showsStyles) arguments
  IO.print ending.output
  for line in ending.messages do
    IO.eprintln line
  return ending.code.toUInt32

end TreeRules

def main (arguments : List String) : IO UInt32 := TreeRules.runProgram arguments
