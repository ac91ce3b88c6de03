/-!
Places in source text: positions by line and column, spans by byte offset, and the cursor that a
reader moves through a source.

Positions count characters and offsets count UTF-8 bytes, so the two are kept side by side.
-/

namespace StyleAudit

/-- A line and a column, both counted from one in characters. -/
structure Position where
  line : Nat
  column : Nat
deriving DecidableEq, Repr, Inhabited

/-- Where every source begins. -/
def Position.start : Position := ⟨1, 1⟩

/-- The number of lines and columns that can be told apart: both are words of 32 bits. -/
def Position.limit : Nat := 0x100000000

/-- The line after a line, or the column after a column; the last one is followed by zero. -/
def Position.following (n : Nat) : Nat := (n + 1) % Position.limit

/-- Below the limit, the following number is the next one. -/
theorem Position.following_of_lt {n : Nat} (h : n + 1 < Position.limit) :
    Position.following n = n + 1 :=
  Nat.mod_eq_of_lt h

/-- The position after `c`: a line feed opens the next line. -/
def Position.advance (p : Position) (c : Char) : Position :=
  if c = '\n' then ⟨following p.line, 1⟩ else ⟨p.line, following p.column⟩

/-- The position after a whole text. -/
def Position.advanceAll (p : Position) (cs : List Char) : Position :=
  cs.foldl Position.advance p

/-- A half-open range of byte offsets. -/
structure Span where
  start : Nat
  stop : Nat
deriving DecidableEq, Repr, Inhabited

/-- The number of bytes, unless the span runs backwards. -/
def Span.length? (s : Span) : Option Nat :=
  if s.start ≤ s.stop then some (s.stop - s.start) else none

def Span.isEmpty (s : Span) : Bool :=
  s.start == s.stop

def Span.contains (s : Span) (offset : Nat) : Bool :=
  s.start ≤ offset && offset < s.stop

/-- The number of bytes of a text in UTF-8. -/
def byteLength : List Char → Nat
  | [] => 0
  | c :: cs => c.utf8Size + byteLength cs

/-- Drops exactly `n` bytes; `none` when that ends inside a character or past the end. -/
def dropBytes? : Nat → List Char → Option (List Char)
  | 0, cs => some cs
  | _ + 1, [] => none
  | n + 1, c :: cs =>
    if c.utf8Size ≤ n + 1 then dropBytes? (n + 1 - c.utf8Size) cs else none

/-- Takes exactly `n` bytes; `none` when that ends inside a character or past the end. -/
def takeBytes? : Nat → List Char → Option (List Char)
  | 0, _ => some []
  | _ + 1, [] => none
  | n + 1, c :: cs =>
    if c.utf8Size ≤ n + 1 then (takeBytes? (n + 1 - c.utf8Size) cs).map (c :: ·) else none

/-- The text under a span, if both ends are character boundaries of the source in order. -/
def Span.slice? (s : Span) (source : String) : Option String :=
  if s.start ≤ s.stop then do
    let rest ← dropBytes? s.start source.toList
    let text ← takeBytes? (s.stop - s.start) rest
    return String.ofList text
  else none

/-- The first position of a node and the position one past its last character. -/
structure Location where
  start : Position
  stop : Position
deriving DecidableEq, Repr, Inhabited

/-- Whether a line lies between the first and the last line. -/
def Location.coversLine (l : Location) (line : Nat) : Bool :=
  l.start.line ≤ line && line ≤ l.stop.line

/-- Where a node came from. -/
structure SourceRange where
  span : Span
  location : Location
deriving DecidableEq, Repr, Inhabited

/-- A place that a reader has reached: the bytes before it, and its position. -/
structure Cursor where
  offset : Nat
  position : Position
deriving DecidableEq, Repr, Inhabited

namespace Cursor

def start : Cursor := ⟨0, Position.start⟩

def advance (cur : Cursor) (c : Char) : Cursor :=
  ⟨cur.offset + c.utf8Size, cur.position.advance c⟩

/-- The cursor after a whole text. -/
def advanceAll (cur : Cursor) (cs : List Char) : Cursor :=
  cs.foldl Cursor.advance cur

/-- The range from one cursor to a later one. A span has words for its ends, too. -/
def rangeTo (first last : Cursor) : SourceRange :=
  ⟨⟨first.offset % Position.limit, last.offset % Position.limit⟩,
    ⟨first.position, last.position⟩⟩

@[simp] theorem advanceAll_nil (cur : Cursor) : cur.advanceAll [] = cur := rfl

@[simp] theorem advanceAll_cons (cur : Cursor) (c : Char) (cs : List Char) :
    cur.advanceAll (c :: cs) = (cur.advance c).advanceAll cs := rfl

@[simp] theorem advanceAll_append (cur : Cursor) (a b : List Char) :
    cur.advanceAll (a ++ b) = (cur.advanceAll a).advanceAll b := by
  simp [advanceAll]

/-- A cursor's position is that of the reference walk over the text it passed. -/
theorem position_advanceAll (cur : Cursor) (cs : List Char) :
    (cur.advanceAll cs).position = cur.position.advanceAll cs := by
  induction cs generalizing cur with
  | nil => rfl
  | cons c cs ih => exact ih (cur.advance c)

/-- A cursor's offset grows by the bytes of the text it passed. -/
theorem offset_advanceAll (cur : Cursor) (cs : List Char) :
    (cur.advanceAll cs).offset = cur.offset + byteLength cs := by
  induction cs generalizing cur with
  | nil => rfl
  | cons c cs ih =>
    simp only [advanceAll_cons, ih, advance, byteLength]
    omega

end Cursor

end StyleAudit
