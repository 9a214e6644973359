import Lsl.Failure
import Lsl.Text.Blank

/-!
The folder a run takes place in: which file a path leads to, and what reading and writing there
comes to. A path is followed part by part, so each folder on its way has to exist even if the path
leaves it again.
-/

set_option autoImplicit false

namespace Lsl

/-- Each file by the names of the folders around it, from the outside in, followed by its own. -/
structure Folder where
  files : List (List String × String) := []
deriving DecidableEq, Inhabited, Repr

/-- Where a path leads. Nothing is known of what lies outside the folder. -/
inductive Destination where
  | outside
  | directory (names : List String)
  | file (names : List String) (content : String)
  | vacant (names? : Option (List String))
deriving DecidableEq, Inhabited, Repr

namespace Folder

/-- The parts of a path, in which repeated and closing slashes leave empty parts. -/
def parts (path : String) : List String :=
  (Text.splitAt (· == '/') path.toList).map String.ofList

def staysInPlace (part : String) : Bool := part.isEmpty || part == "."

def ofList (files : List (String × String)) : Folder where
  files := files.map fun (path, content) => ((parts path).filter (!staysInPlace ·), content)

def maximumNameSize : Nat := 255

def maximumPathSize : Nat := 4095

/-- Reading this path gives nothing, and what is written to it is gone. -/
def nullDevice : String := "/dev/null"

def isDirectory (folder : Folder) (names : List String) : Bool :=
  names.isEmpty || folder.files.any fun (other, _) => names.isPrefixOf other

def placeOf (folder : Folder) (names : List String) : Destination :=
  match folder.files.lookup names with
  | some content => .file names content
  | none => if folder.isDirectory names then .directory names else .vacant (some names)

/-- One part further on a path, which goes on from directories only. -/
def follow (folder : Folder) (place : Destination) (part : String) : Except FileFault Destination :=
  match place with
  | .file _ _ => .error .notDirectory
  | .vacant _ => .error .missing
  | .outside =>
    if staysInPlace part || part == ".." then .ok .outside
    else if part.utf8ByteSize > maximumNameSize then .error .nameTooLong
    else .ok (.vacant none)
  | .directory names =>
    if staysInPlace part then .ok (.directory names)
    else if part == ".." then
      .ok (if names.isEmpty then .outside else .directory names.dropLast)
    else if part.utf8ByteSize > maximumNameSize then .error .nameTooLong
    else .ok (folder.placeOf (names ++ [part]))

def start (path : String) : Destination :=
  if path.toList.head? = some '/' then .outside else .directory []

def read (folder : Folder) (path : String) : Except FileFault String :=
  if path.utf8ByteSize > maximumPathSize then .error .nameTooLong
  else if path == nullDevice then .ok ""
  else do
    match ← (parts path).foldlM folder.follow (start path) with
    | .file _ content => .ok content
    | .vacant _ => .error .missing
    | .directory _ | .outside => .error .isDirectory

def put (folder : Folder) (names : List String) (content : String) : Folder where
  files := (names, content) :: folder.files.filter (·.1 != names)

def write (folder : Folder) (path content : String) : Except FileFault Folder :=
  if path.utf8ByteSize > maximumPathSize then .error .nameTooLong
  else if path == nullDevice then .ok folder
  else
    match (parts path).reverse with
    | [] => .error .missing
    | last :: before => do
      let around := if last.isEmpty then (before.dropWhile String.isEmpty).tail else before
      let directory ← around.reverse.foldlM folder.follow (start path)
      let directory ← folder.follow directory ""
      if last.isEmpty then .error .isDirectory
      else
        match ← folder.follow directory last with
        | .file names _ => .ok (folder.put names content)
        | .vacant (some names) => .ok (folder.put names content)
        | .vacant none => .ok folder
        | .directory _ | .outside => .error .isDirectory

end Folder

end Lsl
