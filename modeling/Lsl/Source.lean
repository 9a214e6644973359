/-!
Places in a source text. A position counts bytes from the start of the text, lines from one and
characters from the start of its line; a span runs from one position to another. What is kept of
a position has 32 bits for each of the three.
-/

set_option autoImplicit false

namespace Lsl

structure Position where
  offset : Nat
  line : Nat
  column : Nat
deriving DecidableEq, Inhabited, Repr

namespace Position

/-- The start of every source text. -/
def origin : Position := ⟨0, 1, 0⟩

/-- The position behind a character. Only a newline starts a line. -/
def advance (place : Position) (char : Char) : Position :=
  if char = '\n' then ⟨place.offset + char.utf8Size, place.line + 1, 0⟩
  else ⟨place.offset + char.utf8Size, place.line, place.column + 1⟩

def advanceOver (place : Position) (chars : List Char) : Position :=
  chars.foldl advance place

@[simp] theorem advance_over_nil (place : Position) : place.advanceOver [] = place := rfl

@[simp] theorem advance_over_cons (place : Position) (char : Char) (rest : List Char) :
    place.advanceOver (char :: rest) = (place.advance char).advanceOver rest := rfl

theorem advance_over_append (place : Position) (front back : List Char) :
    place.advanceOver (front ++ back) = (place.advanceOver front).advanceOver back := by
  simp [advanceOver]

end Position

/-- A position as tokens, nodes and diagnostics keep it. Numbers past 32 bits lose their upper bits. -/
structure StoredPosition where
  offset : UInt32
  line : UInt32
  column : UInt32
deriving DecidableEq, Inhabited, Repr

def StoredPosition.position (place : StoredPosition) : Position :=
  ⟨place.offset.toNat, place.line.toNat, place.column.toNat⟩

def Position.stored (place : Position) : StoredPosition :=
  ⟨.ofNat place.offset, .ofNat place.line, .ofNat place.column⟩

structure Span where
  start : Position
  stop : Position
deriving DecidableEq, Inhabited, Repr

structure StoredSpan where
  start : StoredPosition
  stop : StoredPosition
deriving DecidableEq, Inhabited, Repr

namespace Span

def stored (span : Span) : StoredSpan := ⟨span.start.stored, span.stop.stored⟩

/-- The empty span at a position. -/
def point (place : Position) : Span := ⟨place, place⟩

/-- The smallest span over two spans, compared by offset alone. -/
def merge (first second : Span) : Span where
  start := if second.start.offset < first.start.offset then second.start else first.start
  stop := if second.stop.offset > first.stop.offset then second.stop else first.stop

end Span

namespace Text

/-- The length of a text in bytes, which is what offsets count. -/
def byteSize : List Char → Nat
  | [] => 0
  | char :: rest => char.utf8Size + byteSize rest

end Text

end Lsl
