/-!
What the words of a command line ask for. Options may be written long or short, with their values
behind an equals sign or as the next word, and short options may share a dash.
-/

set_option autoImplicit false

namespace Lsl

inductive ValueOption where
  | input
  | output
  | settings
  | library
  | subsets
  | className
  | classNamespace
deriving DecidableEq, Inhabited, Repr

namespace ValueOption

def ofLong? : String → Option ValueOption
  | "input" => some input
  | "output" => some output
  | "settings" => some settings
  | "library" => some library
  | "subsets" => some subsets
  | "class-name" => some className
  | "namespace" => some classNamespace
  | _ => none

def ofShort? : Char → Option ValueOption
  | 'i' => some input
  | 'o' => some output
  | _ => none

def isPath : ValueOption → Bool
  | input => true
  | output => true
  | settings => true
  | library => true
  | _ => false

end ValueOption

/-- The options that stand by themselves. -/
inductive FlagOption where
  | noClass
  | keysAreStrings
  | coop
  | verbose
  | help
  | version
deriving DecidableEq, Inhabited, Repr

namespace FlagOption

def ofLong? : String → Option FlagOption
  | "no-class" => some noClass
  | "keys-are-strings" => some keysAreStrings
  | "coop" => some coop
  | "verbose" => some verbose
  | "help" => some help
  | "version" => some version
  | _ => none

def ofShort? : Char → Option FlagOption
  | 'v' => some verbose
  | 'h' => some help
  | 'V' => some version
  | _ => none

end FlagOption

inductive Given where
  | value (option : ValueOption) (text : String)
  | flag (option : FlagOption)
deriving DecidableEq, Inhabited, Repr

namespace CommandLine

/-- What one word gives, and the option that waits for the next word. -/
structure Word where
  given : List Given := []
  waiting : Option ValueOption := none
deriving DecidableEq, Inhabited, Repr

/-- A word that starts with two dashes. -/
def longWord? (body : List Char) : Option Word :=
  let name := String.ofList (body.takeWhile (· != '='))
  match ValueOption.ofLong? name, FlagOption.ofLong? name, body.dropWhile (· != '=') with
  | some option, _, _ :: value => some { given := [.value option (String.ofList value)] }
  | some option, _, [] => some { waiting := some option }
  | none, some flag, [] => some { given := [.flag flag] }
  | _, _, _ => none

/-- A word that starts with one dash. What follows an option that takes a value is that value. -/
def shortWord? : List Char → Option Word
  | [] => some {}
  | char :: rest =>
    match ValueOption.ofShort? char, FlagOption.ofShort? char with
    | some option, _ =>
      match rest with
      | [] => some { waiting := some option }
      | '=' :: value => some { given := [.value option (String.ofList value)] }
      | value => some { given := [.value option (String.ofList value)] }
    | none, some flag => do
      let word ← shortWord? rest
      return { word with given := .flag flag :: word.given }
    | none, none => none

/-- What all words give. Only a word that looks like no option is taken as a value, and there are no
words that are neither options nor values. -/
def readWords : Option ValueOption → List String → Option (List Given)
  | some _, [] => none
  | none, [] => some []
  | waiting, word :: words =>
    match waiting, word.toList with
    | none, ['-', '-'] => if words.isEmpty then some [] else none
    | some _, ['-', '-'] => none
    | none, '-' :: '-' :: body => do
      let word ← longWord? body
      return word.given ++ (← readWords word.waiting words)
    | some _, '-' :: _ :: _ => none
    | none, '-' :: char :: body => do
      let word ← shortWord? (char :: body)
      return word.given ++ (← readWords word.waiting words)
    | some option, _ => do
      return .value option word :: (← readWords none words)
    | none, _ => none

/-- An option may be given once, and only verbosity may be raised again. -/
def isRepeated (given : Given) (rest : List Given) : Bool :=
  match given with
  | .value option _ => rest.any fun other =>
    match other with
    | .value again _ => again = option
    | .flag _ => false
  | .flag .verbose => false
  | .flag option => rest.contains (.flag option)

def isNameless : Given → Bool
  | .value option text => option.isPath && text.isEmpty
  | .flag _ => false

def isAcceptable : List Given → Bool
  | [] => true
  | given :: rest => !isRepeated given rest && !isNameless given && isAcceptable rest

def value? (option : ValueOption) : List Given → Option String
  | [] => none
  | .value other text :: rest => if other = option then some text else value? option rest
  | .flag _ :: rest => value? option rest

end CommandLine

structure RunOptions where
  input : String
  output : Option String := none
  settings : Option String := none
  library : Option String := none
  subsets : Option String := none
  className : Option String := none
  classNamespace : Option String := none
  noClass : Bool := false
  keysAreStrings : Bool := false
  coop : Bool := false
deriving DecidableEq, Inhabited, Repr

inductive Invocation where
  | run (options : RunOptions)
  | help
  | version
deriving DecidableEq, Inhabited, Repr

namespace Invocation

open CommandLine

def ofGiven? (given : List Given) : Option Invocation :=
  if given.contains (.flag .help) then some .help
  else if given.contains (.flag .version) then some .version
  else if !isAcceptable given then none
  else do
    let input ← value? .input given
    return .run
      { input
        output := value? .output given
        settings := value? .settings given
        library := value? .library given
        subsets := value? .subsets given
        className := value? .className given
        classNamespace := value? .classNamespace given
        noClass := given.contains (.flag .noClass)
        keysAreStrings := given.contains (.flag .keysAreStrings)
        coop := given.contains (.flag .coop) }

/-- What the words ask for, if they make sense. -/
def read? (words : List String) : Option Invocation :=
  CommandLine.readWords none words >>= ofGiven?

end Invocation

end Lsl
