/-
The command itself: reads the files and the environment, runs, and prints.
-/
import EntitySearch.CommandLine.Run

namespace EntitySearch.CommandLine

def usageText : String :=
  "Compile an entity query into a JSON search request\n\n" ++
    "Options:\n" ++
    "  --schema PATH        YAML entity schema\n" ++
    "  --query TEXT         query text\n" ++
    "  --param NAME=VALUE   named parameter; repeatable\n" ++
    "  --config PATH        YAML engine configuration; ENTITYQL_* environment variables otherwise\n" ++
    "  --raw                print the compiled query instead of the search request\n" ++
    "  -h, --help           print this help\n" ++
    "  -V, --version        print the version\n"

def versionText : String := "entityql 0.3.0-dev\n"

/-- what is said about arguments that are no command -/
def Refusal.message : Refusal → String
  | .missingRequired => "error: --schema and --query are required\n"
  | .unknownArgument => "error: unexpected argument\n"
  | .invalidValue => "error: an option has no valid value\n"
  | .conflict => "error: an option is given twice\n"
  | .tooManyValues => "error: an option takes no value\n"
  | .help => usageText
  | .version => versionText

/-- the content of a file -/
def readFile (path : String) : IO (Except String String) := do
  try
    return .ok (← IO.FS.readFile path)
  catch
    | .noFileOrDirectory .. => return .error "No such file or directory (os error 2)"
    | e => return .error (toString e)

/-- the settings found in the environment -/
def readEnvironment : IO Config.Environment := do
  let found ← [Config.Setting.maxQueryLength, .maxExpressionDepth, .logQueries].filterMapM fun s => do
    return (← IO.getEnv s.variableName).map fun value => (s.variableName, value)
  return found

/-- the files that the arguments name -/
def readFiles (args : Arguments) : IO Files := do
  let read ← (args.schema :: args.config.toList).mapM fun path => do return (path, ← readFile path)
  return fun path => (read.lookup path).getD (.error "No such file or directory (os error 2)")

end EntitySearch.CommandLine

open EntitySearch.CommandLine in
def main (words : List String) : IO UInt32 := do
  match parse words with
  | .error .help =>
    IO.print Refusal.help.message
    return 0
  | .error .version =>
    IO.print Refusal.version.message
    return 0
  | .error refusal =>
    IO.eprint refusal.message
    return 2
  | .ok args =>
    match run (← readFiles args) (← readEnvironment) args with
    | .ok text =>
      IO.print text
      return 0
    | .error failure =>
      IO.eprintln failure.message
      return 1
