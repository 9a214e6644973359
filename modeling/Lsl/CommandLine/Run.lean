import Lsl.CommandLine
import Lsl.CommandLine.Folder
import Lsl.Compilation
import Lsl.Diagnostic.Excerpt
import Lsl.Library.Bundled
import Lsl.Library.Descriptor
import Lsl.Settings.Document

/-!
Runs of the compiler as a function from the contents of files to what is printed and written, and
as a step from one state of a folder to the next.
-/

set_option autoImplicit false

namespace Lsl

/-- What a run comes to. The file it writes is given by its path and content. -/
structure Outcome where
  exit : Nat := 0
  printed : String := ""
  complaints : String := ""
  file : Option (String × String) := none
deriving DecidableEq, Inhabited, Repr

namespace Outcome

/-- The run ends with a failure, after what was said before. -/
def failed (complaints : String) (failure : Failure) : Outcome where
  exit := 2
  complaints := complaints ++ "Error: " ++ failure.message ++ "\n"

def unwritten (outcome : Outcome) (fault : FileFault) : Outcome :=
  failed outcome.complaints (.file fault)

end Outcome

structure Formats where
  markup : Markup.Reader
  settings : SettingsFormat

/-- The contents of files, or why they cannot be read. -/
abbrev Files := String → Except FileFault String

namespace RunOptions

def readFile (files : Files) (path : String) : Except Failure String :=
  match files path with
  | .ok content => .ok content
  | .error fault => .error (.file fault)

def paths (options : RunOptions) : List String :=
  options.settings.toList ++ options.library.toList ++ [options.input]

def loadSettings (options : RunOptions) (formats : Formats) (files : Files) :
    Except Failure Settings := do
  let settings ← match options.settings with
    | some path => readFile files path >>= Settings.ofDocument formats.settings
    | none => pure {}
  let settings := { settings with
    wrapsInClass := settings.wrapsInClass && !options.noClass
    keysAreStrings := settings.keysAreStrings || options.keysAreStrings
    checksTermination := settings.checksTermination || options.coop
    className? := options.className <|> settings.className?
    enclosingNamespace? := options.classNamespace <|> settings.enclosingNamespace? }
  settings.validate
  return settings

def loadLibrary (options : RunOptions) (formats : Formats) (files : Files) :
    Except Failure Library := do
  let subsets ← match options.subsets with
    | some text => readSubsets text
    | none => pure ["lsl"]
  match options.library with
  | some path => Library.ofDescriptor formats.markup (← readFile files path) subsets
  | none => Library.bundled subsets

def fileName (path : String) : String :=
  let parts := (Text.splitAt (· == '/') path.toList).filter fun part =>
    !part.isEmpty && part != ['.']
  match parts.getLast? with
  | some ['.', '.'] => path
  | some part => String.ofList part
  | none => path

/-- Prints or writes the code of a source that was read from the input. -/
def compileInput (options : RunOptions) (library : Library) (settings : Settings)
    (date source : String) : Outcome :=
  let (checked, output) := compileSource library settings date source
  match output.failure with
  | some failure => .failed "" failure
  | none =>
    let name := fileName options.input
    let complaints := String.join (checked.reports.map (·.render source name))
    if checked.value.hasErrors then
      let count := checked.reports.countP Diagnostic.isError
      { exit := 1
        complaints :=
          complaints ++ name ++ ": " ++ toString count ++ " error(s), no code generated\n" }
    else
      match options.output with
      | some path => { complaints, file := some (path, output.text) }
      | none => { complaints, printed := output.text }

/-- Settings are loaded first, then the library, then the script. -/
def run (options : RunOptions) (formats : Formats) (files : Files) (date : String) : Outcome :=
  let loaded := do
    let settings ← options.loadSettings formats files
    let library ← options.loadLibrary formats files
    let source ← readFile files options.input
    return (settings, library, source)
  match loaded with
  | .error failure => .failed "" failure
  | .ok (settings, library, source) =>
    options.compileInput library settings date source

def runIn (options : RunOptions) (formats : Formats) (folder : Folder) (date : String) :
    Outcome × Folder :=
  let outcome := options.run formats folder.read date
  match outcome.file with
  | none => (outcome, folder)
  | some (path, content) =>
    match folder.write path content with
    | .ok changed => (outcome, changed)
    | .error fault => (outcome.unwritten fault, folder)

end RunOptions

end Lsl
