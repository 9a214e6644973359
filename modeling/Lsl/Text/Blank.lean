/-!
White space: the characters with the property White_Space, and what trimming them leaves.
-/

set_option autoImplicit false

namespace Lsl.Text

/-- The twenty-five characters with the property White_Space. -/
def isBlank (char : Char) : Bool :=
  let code := char.toNat
  (9 ≤ code && code ≤ 13) || code == 0x20 || code == 0x85 || code == 0xa0 || code == 0x1680 ||
    (0x2000 ≤ code && code ≤ 0x200a) || code == 0x2028 || code == 0x2029 || code == 0x202f ||
    code == 0x205f || code == 0x3000

def trimLeft (chars : List Char) : List Char := chars.dropWhile isBlank

def trimRight (chars : List Char) : List Char := (chars.reverse.dropWhile isBlank).reverse

/-- A text without the white space at its two ends. -/
def trim (text : String) : String := String.ofList (trimRight (trimLeft text.toList))

def isBlankText (text : String) : Bool := text.toList.all isBlank

/-- The parts between separators; there is one more part than separators. -/
def splitAt (isSeparator : Char → Bool) : List Char → List (List Char)
  | [] => [[]]
  | char :: rest =>
    match splitAt isSeparator rest with
    | [] => [[char]]
    | part :: parts => if isSeparator char then [] :: part :: parts else (char :: part) :: parts

def splitCommas (text : String) : List String :=
  (splitAt (· == ',') text.toList).map String.ofList

end Lsl.Text
