import Lsl.Literal.Decimal
import Lsl.Markup
import Lsl.Source

/-!
The reader of markup that runs are made with. Text is cut at comments and loses the blanks at its
ends; a text of blanks alone is no event.
-/

set_option autoImplicit false

namespace Lsl.Markup.Scanner

def isBlank (char : Char) : Bool :=
  char == ' ' || char == '\t' || char == '\n' || char == '\r'

def dropBlankEnd (chars : List Char) : List Char := (chars.reverse.dropWhile isBlank).reverse

/-- The attributes behind the name of a tag. One that is malformed or repeated is an error. -/
def itemsWithin : Nat → List (List Char) → List Char → List (Option (String × String))
  | 0, _, _ => []
  | fuel + 1, seen, chars =>
    match chars.dropWhile isBlank with
    | [] => []
    | first :: rest =>
      let inKey := fun char => char != '=' && !isBlank char
      let key := first :: rest.takeWhile inKey
      match (rest.dropWhile inKey).dropWhile isBlank with
      | '=' :: value =>
        if seen.contains key then
          none :: itemsWithin fuel seen (value.dropWhile (!isBlank ·))
        else
          match value.dropWhile isBlank with
          | [] => [none]
          | quote :: inner =>
            if quote == '"' || quote == '\'' then
              match inner.dropWhile (· != quote) with
              | [] => [none]
              | _ :: behind =>
                some (String.ofList key, String.ofList (inner.takeWhile (· != quote))) ::
                  itemsWithin fuel (key :: seen) behind
            else none :: itemsWithin fuel (key :: seen) (inner.dropWhile (!isBlank ·))
      | other => none :: itemsWithin fuel seen other

def tagOf (content : List Char) : Tag where
  name := String.ofList (content.takeWhile (!isBlank ·))
  items := itemsWithin (content.length + 1) [] (content.dropWhile (!isBlank ·))

/-- The quote the text stands in, if any, is remembered on the way to the closing bracket. -/
def tagLength? (quote : Option Char) : List Char → Option Nat
  | [] => none
  | char :: rest =>
    match quote with
    | some mark => (tagLength? (if char == mark then none else quote) rest).map (· + 1)
    | none =>
      if char == '>' then some 0
      else
        (tagLength? (if char == '"' || char == '\'' then some char else none) rest).map (· + 1)

/-- The characters before the first `>` that has the mark twice in front of it and lies far enough
from the start. -/
def closedLength? (mark : Char) (least place : Nat) (last second : Char) :
    List Char → Option Nat
  | [] => none
  | char :: rest =>
    if char == '>' && place ≥ least && last == mark && second == mark then some place
    else closedLength? mark least (place + 1) char last rest

def balancedLength? (open_ : Nat) (place : Nat) : List Char → Option Nat
  | [] => none
  | char :: rest =>
    if char == '>' then
      if open_ = 0 then some place else balancedLength? (open_ - 1) (place + 1) rest
    else balancedLength? (if char == '<' then open_ + 1 else open_) (place + 1) rest

def unclosedTag : String := "syntax error: tag not closed: `>` not found before end of input"

def unclosedComment : String :=
  "syntax error: comment not closed: `-->` not found before end of input"

def unclosedVerbatim : String :=
  "syntax error: CDATA not closed: `]]>` not found before end of input"

def unclosedDoctype : String :=
  "syntax error: DOCTYPE not closed: `>` not found before end of input"

def namelessDoctype : String :=
  "ill-formed document: `<!DOCTYPE>` declaration does not contain a name of a document type"

def unclosedInstruction : String :=
  "syntax error: processing instruction or xml declaration not closed: " ++
    "`?>` not found before end of input"

/-- What stands at the front of a document, an event or a fault, its length in characters, and the
tags that are open behind it. -/
structure Piece where
  found : Except String Event
  length : Nat
  opened : List String
deriving Inhabited

/-- A mark of the form `<!…>`, given the text behind `<`. -/
def declarationPiece (opened : List String) (chars : List Char) : Piece :=
  let whole := chars.length + 1
  match chars with
  | '!' :: '-' :: _ =>
    match closedLength? '-' 5 0 ' ' ' ' chars with
    | none => ⟨.error unclosedComment, whole, opened⟩
    | some length =>
      if ['!', '-', '-'].isPrefixOf chars then ⟨.ok .skipped, length + 2, opened⟩
      else ⟨.error unclosedComment, length + 2, opened⟩
  | '!' :: '[' :: _ =>
    match closedLength? ']' 2 0 ' ' ' ' chars with
    | none => ⟨.error unclosedVerbatim, whole, opened⟩
    | some length =>
      if "![CDATA[".toList.isPrefixOf chars then
        ⟨.ok (.verbatim (String.ofList ((chars.take (length - 2)).drop 8))), length + 2, opened⟩
      else ⟨.error unclosedVerbatim, length + 2, opened⟩
  | '!' :: letter :: _ =>
    if letter == 'D' || letter == 'd' then
      match balancedLength? 0 0 chars with
      | none => ⟨.error unclosedDoctype, whole, opened⟩
      | some length =>
        if (chars.take 8).map Char.toUpper == "!DOCTYPE".toList then
          if ((chars.take length).drop 8).all isBlank then
            ⟨.error namelessDoctype, length + 2, opened⟩
          else ⟨.ok .skipped, length + 2, opened⟩
        else ⟨.error unclosedDoctype, length + 2, opened⟩
    else ⟨.error "syntax error: unknown or missed symbol in markup", 1, opened⟩
  | _ => ⟨.error "syntax error: unknown or missed symbol in markup", 1, opened⟩

def closingPiece (opened : List String) (content : List Char) (length : Nat) : Piece :=
  let name := String.ofList (match dropBlankEnd content with
    | [] => content
    | trimmed => trimmed)
  match opened with
  | [] =>
    ⟨.error ("ill-formed document: close tag `</" ++ name ++ ">` does not match any open tag"),
      length, []⟩
  | expected :: rest =>
    if name = expected then ⟨.ok (.closing name), length, rest⟩
    else
      ⟨.error ("ill-formed document: expected `</" ++ expected ++ ">`, but `</" ++ name ++
        ">` was found"), length, rest⟩

def tagPiece (opened : List String) (chars : List Char) : Piece :=
  let whole := chars.length + 1
  match chars with
  | [] => ⟨.error unclosedTag, whole, opened⟩
  | '!' :: _ => declarationPiece opened chars
  | '?' :: _ =>
    match closedInstruction? chars with
    | none => ⟨.error unclosedInstruction, whole, opened⟩
    | some length =>
      if length > 1 then ⟨.ok .skipped, length + 2, opened⟩
      else ⟨.error unclosedInstruction, length + 2, opened⟩
  | _ =>
    match tagLength? none chars with
    | none => ⟨.error unclosedTag, whole, opened⟩
    | some length =>
      let content := chars.take length
      match content with
      | '/' :: name => closingPiece opened name (length + 2)
      | _ =>
        if content.getLast? = some '/' then
          ⟨.ok (.selfClosed (tagOf content.dropLast)), length + 2, opened⟩
        else
          let tag := tagOf content
          ⟨.ok (.opening tag), length + 2, tag.name :: opened⟩
where
  closedInstruction? : List Char → Option Nat
    | '?' :: '>' :: _ => some 1
    | _ :: rest => (closedInstruction? rest).map (· + 1)
    | [] => none

def piece (opened : List String) (first : Char) (rest : List Char) : Piece :=
  if isBlank first then ⟨.ok .skipped, 1, opened⟩
  else if first == '<' then tagPiece opened rest
  else
    let raw := (first :: rest).takeWhile (· != '<')
    ⟨.ok (.text (String.ofList (dropBlankEnd raw))), raw.length, opened⟩

/-- What is read behind a number of bytes. The third argument counts characters that still belong to
the piece read last. -/
def readFrom (offset : Nat) (opened : List String) : Nat → List Char → Reading
  | _, [] => { events := [], stop := offset }
  | pending + 1, char :: rest => readFrom (offset + char.utf8Size) opened pending rest
  | 0, char :: rest =>
    let piece := piece opened char rest
    let stop := offset + Text.byteSize ((char :: rest).take piece.length)
    match piece.found with
    | .error message => { events := [], stop, fault := some message }
    | .ok event =>
      let behind := readFrom (offset + char.utf8Size) piece.opened (piece.length - 1) rest
      { behind with events := ⟨event, stop⟩ :: behind.events }

/-- A byte order mark at the start of a document is passed over and not counted. -/
def read (document : String) : Reading :=
  match document.toList with
  | '\ufeff' :: rest => readFrom 0 [] 0 rest
  | chars => readFrom 0 [] 0 chars

def entity? (name : List Char) : Option Char :=
  match name with
  | '#' :: 'x' :: digits => (natural? 16 digits).bind charOf?
  | '#' :: digits => (natural? 10 digits).bind charOf?
  | _ =>
    match String.ofList name with
    | "lt" => some '<'
    | "gt" => some '>'
    | "amp" => some '&'
    | "apos" => some '\''
    | "quot" => some '"'
    | _ => none
where
  charOf? (code : Nat) : Option Char :=
    if code ≠ 0 ∧ code.isValidChar then some (Char.ofNat code) else none

/-- Text with its references replaced, if all of them are known. The first argument holds the
reference being read. -/
def decodeFrom (reference : Option (List Char)) : List Char → Option (List Char)
  | [] => if reference.isSome then none else some []
  | char :: rest =>
    match reference with
    | none =>
      if char == '&' then decodeFrom (some []) rest
      else (decodeFrom none rest).map (char :: ·)
    | some name =>
      if char == ';' then
        match entity? name.reverse with
        | some value => (decodeFrom none rest).map (value :: ·)
        | none => none
      else if char == '&' then none
      else decodeFrom (some (char :: name)) rest

def unescape? (raw : String) : Option String := (decodeFrom none raw.toList).map String.ofList

end Lsl.Markup.Scanner

namespace Lsl.Markup

def scanner : Reader := ⟨Scanner.read, Scanner.unescape?⟩

end Lsl.Markup
