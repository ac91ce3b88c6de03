import StyleAudit.Sheet.Fault

/-!
A source text that is read by byte offsets.

Bytes, slices and positions are asked for at an offset, and an offset can be wrong: past the end, or
inside a character. What is asked for in vain ends the reading, so that a reading that comes to a
tree or to a syntax error has asked at no such offset.
-/

namespace StyleAudit

/-- Why a reading by offsets ends without a tree. -/
inductive Halt where
  /-- The source has a fault, reported at an offset that has this position. -/
  | malformed (fault : Fault) (offset : Nat) (position : Position)
  /-- A slice that runs backwards, past the end or through a character. -/
  | noSlice (start stop : Nat)
  /-- An index that is not below the length. -/
  | noEntry (index : Nat)
  /-- A difference below zero. -/
  | negative (whole part : Nat)
  /-- A step from one offset to another that is not further on, or is past the end. -/
  | stuck (offset next : Nat)
deriving DecidableEq, Repr

/-- The text between two offsets. -/
def sliceOf (text : String) (start stop : Nat) : Except Halt String :=
  match Span.slice? ⟨start, stop⟩ text with
  | some slice => .ok slice
  | none => .error (.noSlice start stop)

/-- The difference of two lengths. -/
def difference (whole part : Nat) : Except Halt Nat :=
  if part ≤ whole then .ok (whole - part) else .error (.negative whole part)

/-- The offsets that line feeds lead to, in a text that stands at an offset. -/
def lineBreaks : Nat → List Char → List Nat
  | _, [] => []
  | offset, c :: cs =>
    let next := offset + c.utf8Size
    if c = '\n' then next :: lineBreaks next cs else lineBreaks next cs

/--
How many entries satisfy `p`, if those are the first ones. The entries before `low` satisfy it, and
those from `high` on do not.
-/
def partitionPoint (p : Nat → Bool) (entries : Array Nat) (low high : Nat)
    (hhigh : high ≤ entries.size) : Nat :=
  if hlow : low < high then
    let middle := (low + high) / 2
    if p entries[middle] then partitionPoint p entries (middle + 1) high hhigh
    else partitionPoint p entries low middle (by omega)
  else low
termination_by high - low

/-- A text with the offsets at which its lines begin. -/
structure IndexedText where
  text : String
  lineStarts : Array Nat
  indexed : lineStarts = (0 :: lineBreaks 0 text.toList).toArray

namespace IndexedText

def ofString (text : String) : IndexedText :=
  ⟨text, (0 :: lineBreaks 0 text.toList).toArray, rfl⟩

variable (s : IndexedText)

def bytes : ByteArray :=
  s.text.toUTF8

def size : Nat :=
  s.bytes.size

def slice (start stop : Nat) : Except Halt String :=
  sliceOf s.text start stop

def byteAt (offset : Nat) : Except Halt UInt8 :=
  match s.bytes[offset]? with
  | some b => .ok b
  | none => .error (.noEntry offset)

/--
The position of an offset: the line is the last one that begins at the offset or before it, and the
column counts the characters from there. Both are cut to words.
-/
def positionAt (offset : Nat) : Except Halt Position := do
  let line ← difference
    (partitionPoint (fun lineStart => lineStart ≤ offset) s.lineStarts 0 s.lineStarts.size
      (Nat.le_refl _)) 1
  match s.lineStarts[line]? with
  | none => .error (.noEntry line)
  | some lineStart =>
    let text ← s.slice lineStart offset
    return ⟨Position.following (line % Position.limit), (text.length + 1) % Position.limit⟩

/-- The source range between two offsets. -/
def range (start stop : Nat) : Except Halt SourceRange := do
  let first ← s.positionAt start
  let last ← s.positionAt stop
  return ⟨⟨start % Position.limit, stop % Position.limit⟩, ⟨first, last⟩⟩

/-- Ends the reading with a fault at an offset. -/
def fail {α : Type} (fault : Fault) (offset : Nat) : Except Halt α := do
  let position ← s.positionAt offset
  .error (.malformed fault offset position)

end IndexedText

end StyleAudit
