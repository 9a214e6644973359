import Lsl.Text.Quoted

/-!
Why the compiler refuses a request. A failure is a misuse of the compiler or a broken library
descriptor; what is wrong with a script is said by diagnostics instead.
-/

set_option autoImplicit false

namespace Lsl

/-- What a parameter list belongs to. -/
inductive SignatureOwner where
  | function
  | event
deriving DecidableEq, Inhabited, Repr

def SignatureOwner.word : SignatureOwner → String
  | function => "function"
  | event => "event handler"

inductive SignatureFault where
  | malformedSignature (owner : SignatureOwner) (text : String)
  | malformedParameter (text : String)
  | unknownParameterType (name : String)
  | unknownReturnType (name : String)
  | variadicInEvent (event parameter : String)
  | behindVariadic (function : String)
  | voidParameter (owner : SignatureOwner) (name parameter : String)
  | repeatedParameter (owner : SignatureOwner) (name parameter : String)
  | voidConstant (name : String)
deriving DecidableEq, Inhabited, Repr

namespace SignatureFault

open Text (quote)

def message : SignatureFault → String
  | malformedSignature .function text => "malformed function signature " ++ quote text
  | malformedSignature .event text => "malformed event signature " ++ quote text
  | malformedParameter text => "malformed parameter " ++ quote text
  | unknownParameterType name => "unknown parameter type " ++ quote name
  | unknownReturnType name => "unknown return type " ++ quote name
  | variadicInEvent event parameter =>
    "event handler " ++ quote event ++ " cannot have variadic parameter " ++ quote parameter
  | behindVariadic function =>
    "function " ++ quote function ++ " has parameters after its variadic parameter"
  | voidParameter owner name parameter =>
    owner.word ++ " " ++ quote name ++ " parameter " ++ quote parameter ++ " cannot be void"
  | repeatedParameter owner name parameter =>
    owner.word ++ " " ++ quote name ++ " declares parameter " ++ quote parameter ++ " twice"
  | voidConstant name => "constant " ++ quote name ++ " cannot be void"

end SignatureFault

/-- Why a file cannot be read or written. -/
inductive FileFault where
  | missing
  | denied
  | notDirectory
  | isDirectory
  | nameTooLong
  | notText
  | other (reason : String)
deriving DecidableEq, Inhabited, Repr

def FileFault.message : FileFault → String
  | missing => "No such file or directory (os error 2)"
  | denied => "Permission denied (os error 13)"
  | notDirectory => "Not a directory (os error 20)"
  | isDirectory => "Is a directory (os error 21)"
  | nameTooLong => "File name too long (os error 36)"
  | notText => "stream did not contain valid UTF-8"
  | other reason => reason

inductive Failure where
  | invalidArgument (reason : String)
  | invalidSymbolName (name : String)
  | invalidSubsetName (name : String)
  | invalidSignature (fault : SignatureFault)
  | duplicateSignature (signature : String)
  | libraryData (line : Nat) (reason : String)
  | invalidSetting (setting reason : String)
  | internal (reason : String)
  | file (fault : FileFault)
  | json
deriving DecidableEq, Inhabited, Repr

namespace Failure

open Text (quote)

def message : Failure → String
  | invalidArgument reason => "invalid argument: " ++ reason
  | invalidSymbolName name => "invalid symbol name " ++ quote name
  | invalidSubsetName name => "invalid subset name " ++ quote name
  | invalidSignature fault => "invalid signature: " ++ fault.message
  | duplicateSignature signature => "duplicate library signature " ++ quote signature
  | libraryData line reason => "library data error at line " ++ toString line ++ ": " ++ reason
  | invalidSetting setting reason => "invalid compiler setting " ++ setting ++ ": " ++ reason
  | internal reason => "internal compiler error: " ++ reason
  | file fault => fault.message
  | json => "invalid settings text"

end Failure

end Lsl
