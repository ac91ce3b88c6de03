import StyleAudit.CharSet.Named
import StyleAudit.Regex.Basic
import StyleAudit.Regex.Reader
import StyleAudit.Regex.Size

/-!
The expression that a pattern stands for.

Flags change the meaning of what follows them in their group. Without the flag for Unicode the
sets are those of ASCII, and a pattern that could match a part of a character has no meaning. A
set that ignores case takes in both cases before it is negated.
-/

namespace StyleAudit.Regex

/-- The flags in force, as far as they change what is matched. -/
structure Mode where
  caseless : Bool := false
  multiLine : Bool := false
  dotAll : Bool := false
  unicode : Bool := true
  carriageReturn : Bool := false

namespace Mode

def change (m : Mode) (c : FlagChange) : Mode where
  caseless := c.apply .caseless m.caseless
  multiLine := c.apply .multiLine m.multiLine
  dotAll := c.apply .dotAll m.dotAll
  unicode := c.apply .unicode m.unicode
  carriageReturn := c.apply .carriageReturn m.carriageReturn

/-- A set with both cases, where case is ignored. -/
def fold (m : Mode) (s : CharSet) : CharSet :=
  if !m.caseless then s
  else if m.unicode then s.foldCase
  else s.foldAsciiCase

/-- A set that is negated where it is written so, which needs Unicode. -/
def negate? (m : Mode) (negated : Bool) (s : CharSet) : Option CharSet :=
  if !negated then some s
  else if m.unicode then some s.compl
  else none

/-- The characters of words. -/
def word (m : Mode) : CharSet :=
  if m.unicode then CharSet.wordChars
  else ⟨[(0x30, 0x39), (0x41, 0x5A), (0x5F, 0x5F), (0x61, 0x7A)]⟩

def shorthand (m : Mode) : Shorthand → CharSet
  | .digit => if m.unicode then CharSet.digits else ⟨[(0x30, 0x39)]⟩
  | .space => if m.unicode then CharSet.blank else ⟨[(0x09, 0x0D), (0x20, 0x20)]⟩
  | .word => m.word

def query? (m : Mode) (negated : Bool) (q : SetQuery) : Option CharSet :=
  if m.unicode then
    let found := match q with
      | .named name => CharSet.named? name
      | .ofClass kind name => CharSet.classNamed? kind name
    found.bind fun s => m.negate? negated (m.fold s)
  else none

/-- Whether a character is written as a byte that is no character by itself. -/
def isPartial (m : Mode) (l : Literal) : Bool :=
  !m.unicode && l.asByte && 0x80 ≤ l.char.toNat

/-- A character in a set; without Unicode it has to be an ASCII character. -/
def member? (m : Mode) (l : Literal) : Option Char :=
  if m.unicode || l.char.toNat < 0x80 then some l.char else none

/-- A character outside sets. -/
def literal? (m : Mode) (l : Literal) : Option CharSet :=
  if m.isPartial l then none else some (m.fold (.single l.char))

/-- What a dot stands for, which needs Unicode. -/
def dot? (m : Mode) : Option CharSet :=
  if !m.unicode then none
  else if m.dotAll then some .all
  else if m.carriageReturn then some (CharSet.ofRanges [(0x0A, 0x0A), (0x0D, 0x0D)]).compl
  else some (CharSet.single '\n').compl

def anchor (m : Mode) : Assertion → Anchor
  | .lineStart =>
    if !m.multiLine then .textStart
    else if m.carriageReturn then .returnLineStart
    else .lineStart
  | .lineEnd =>
    if !m.multiLine then .textEnd
    else if m.carriageReturn then .returnLineEnd
    else .lineEnd
  | .textStart => .textStart
  | .textEnd => .textEnd
  | .wordBoundary => .wordBoundary m.word
  | .notWordBoundary => .notWordBoundary m.word
  | .wordStart => .wordStart m.word
  | .wordEnd => .wordEnd m.word
  | .wordStartHalf => .notAfterWord m.word
  | .wordEndHalf => .notBeforeWord m.word

end Mode

mutual

/-- The set that a set pattern stands for. -/
def SetPattern.meaning? (m : Mode) : SetPattern → Option CharSet
  | .empty => some .empty
  | .literal l => (m.member? l).map .single
  | .range first last => do return .range (← m.member? first) (← m.member? last)
  | .ascii negated set => m.negate? negated (m.fold set)
  | .query negated q => m.query? negated q
  | .shorthand negated kind => m.negate? negated (m.shorthand kind)
  | .bracket negated body => do m.negate? negated (m.fold (← body.meaning? m))
  | .union first second others => do
    return .unions ((← first.meaning? m) :: (← second.meaning? m) ::
      (← SetPattern.meanings? m others))
  | .op kind left right => do
    return kind.apply (m.fold (← left.meaning? m)) (m.fold (← right.meaning? m))

def SetPattern.meanings? (m : Mode) : List SetPattern → Option (List CharSet)
  | [] => some []
  | p :: ps => do return (← p.meaning? m) :: (← SetPattern.meanings? m ps)

end

mutual

/-- The expression that a pattern stands for, and the flags after it. -/
def Pattern.meaning? (m : Mode) : Pattern → Option (Regex × Mode)
  | .empty => some (.empty, m)
  | .flags change => some (.empty, m.change change)
  | .literal l => (m.literal? l).map fun s => (.chars s, m)
  | .dot => m.dot?.map fun s => (.chars s, m)
  | .assertion a => some (.anchor (m.anchor a), m)
  | .query negated q => (m.query? negated q).map fun s => (.chars s, m)
  | .shorthand negated kind => (m.negate? negated (m.shorthand kind)).map fun s => (.chars s, m)
  | .bracket negated body => do
    return (.chars (← m.negate? negated (m.fold (← body.meaning? m))), m)
  | .repeated p least most => do
    let (r, m) ← p.meaning? m
    return (r.times least most, m)
  | .group remembered change p => do
    let (r, _) ← p.meaning? (m.change change)
    return (if remembered then .capture r else r, m)
  | .alternatives first second others => do
    let (first, m) ← first.meaning? m
    let (second, m) ← second.meaning? m
    let (others, m) ← Pattern.meanings? m others
    return (.anyOf (first :: second :: others), m)
  | .sequence first second others => do
    let (first, m) ← first.meaning? m
    let (second, m) ← second.meaning? m
    let (others, m) ← Pattern.meanings? m others
    return (others.foldl .cat (.cat first second), m)

def Pattern.meanings? (m : Mode) : List Pattern → Option (List Regex × Mode)
  | [] => some ([], m)
  | p :: ps => do
    let (r, m) ← p.meaning? m
    let (rs, m) ← Pattern.meanings? m ps
    return (r :: rs, m)

end

/-- Reads an expression, if the text is one and the expression is not too large. -/
def parse? (source : String) : Option Regex := do
  let (r, _) ← (← Pattern.parse? source).meaning? {}
  if r.isSmall then some r else none

end StyleAudit.Regex
