import Lsl.CommandLine.Run
import Lsl.Markup.Scanner
import Lsl.Settings.Format
import Lsl.Timestamp
import Std.Time.DateTime.Timestamp

/-!
The command line: reads files, has a run computed and prints or writes its outcome.
-/

set_option autoImplicit false

namespace Lsl.Main

def usage : String :=
  "Usage: lslcc [OPTIONS] --input <INPUT>\n\n" ++
    "Options:\n" ++
    "  -i, --input <INPUT>            Script to compile\n" ++
    "  -o, --output <OUTPUT>          Where to write the generated code, standard output when " ++
      "omitted\n" ++
    "      --settings <SETTINGS>      JSON file with code generator settings\n" ++
    "      --library <LIBRARY>        Library descriptor XML used instead of the bundled one\n" ++
    "      --subsets <SUBSETS>        Comma separated library subsets to enable\n" ++
    "      --class-name <CLASS_NAME>  Name of the generated class\n" ++
    "      --namespace <NAMESPACE>    Namespace around the generated class\n" ++
    "      --no-class                 Leave out the class wrapper, as the OpenSim runtime " ++
      "expects\n" ++
    "      --keys-are-strings         Treat keys as strings in the generated code\n" ++
    "      --coop                     Insert co-op termination calls\n" ++
    "  -v, --verbose...               Log more, repeat for trace output\n" ++
    "  -h, --help                     Print help\n" ++
    "  -V, --version                  Print version\n"

/-- The number of a system error. Some calls give it with a minus sign. -/
def systemNumber (code : UInt32) : Nat := code.toInt32.toInt.natAbs

/-- Why a file could not be read or written. -/
def faultOf : IO.Error → FileFault
  | .noFileOrDirectory _ _ _ => .missing
  | .permissionDenied _ _ _ => .denied
  | .inappropriateType _ code _ =>
    if systemNumber code = 20 then .notDirectory else .isDirectory
  | .invalidArgument file code details =>
    if systemNumber code = 36 then .nameTooLong
    else .other (toString (IO.Error.invalidArgument file code details))
  | .userError _ => .notText
  | error => .other (toString error)

def readFile (path : String) : IO (String × Except FileFault String) := do
  try return (path, .ok (← IO.FS.readFile path))
  catch error => return (path, .error (faultOf error))

def finish (outcome : Outcome) : IO UInt32 := do
  IO.print outcome.printed
  IO.eprint outcome.complaints
  return outcome.exit.toUInt32

/-- Writes the file of an outcome, before anything is printed. -/
def conclude (outcome : Outcome) : IO UInt32 := do
  match outcome.file with
  | none => finish outcome
  | some (path, content) =>
    try
      IO.FS.writeFile path content
      finish outcome
    catch error => finish (outcome.unwritten (faultOf error))

def formats : Formats := ⟨Markup.scanner, Settings.format⟩

def runWith (options : RunOptions) : IO UInt32 := do
  let contents ← options.paths.mapM readFile
  let files : Files := fun path =>
    (contents.lookup path).getD (.error .missing)
  let now ← Std.Time.Timestamp.now
  let seconds := now.toSecondsSinceUnixEpoch.val.toNat
  conclude (options.run formats files (Moment.ofSeconds seconds).text)

end Lsl.Main

def main (arguments : List String) : IO UInt32 := do
  match Lsl.Invocation.read? arguments with
  | some (.run options) => Lsl.Main.runWith options
  | some .help =>
    IO.print ("LSL to OpenSim C# compiler\n\n" ++ Lsl.Main.usage)
    return 0
  | some .version =>
    IO.print "lslcc 0.1.0\n"
    return 0
  | none =>
    IO.eprint Lsl.Main.usage
    return 2
