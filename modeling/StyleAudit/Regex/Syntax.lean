import StyleAudit.CharSet.Basic

/-!
The syntax of regular expressions.

A pattern is a regular expression as it is written: flags stand where they are set, and sets of
characters are still made of their parts. What a pattern means depends on the flags in force.
-/

namespace StyleAudit.Regex

inductive Flag where
  /-- `i`: upper and lower case are the same. -/
  | caseless
  /-- `m`: `^` and `$` look at lines. -/
  | multiLine
  /-- `s`: a dot also stands for a line end. -/
  | dotAll
  /-- `U`: repetitions prefer few where they are written to prefer many. -/
  | swapGreed
  /-- `u`: sets are those of the Unicode standard, not of ASCII. -/
  | unicode
  /-- `R`: a carriage return also ends a line. -/
  | carriageReturn
  /-- `x`: blanks and comments do not count. -/
  | verbose
deriving DecidableEq, Repr

/-- Flags that are set and flags that are cleared. -/
structure FlagChange where
  set : List Flag
  cleared : List Flag
deriving DecidableEq, Repr

/-- What a change makes of a flag that had some state. -/
def FlagChange.apply (change : FlagChange) (flag : Flag) (old : Bool) : Bool :=
  if change.set.contains flag then true
  else if change.cleared.contains flag then false
  else old

/-- A condition on a place in a text, as it is written. -/
inductive Assertion where
  | lineStart
  | lineEnd
  | textStart
  | textEnd
  | wordBoundary
  | notWordBoundary
  | wordStart
  | wordEnd
  /-- No word ends here. -/
  | wordStartHalf
  /-- No word begins here. -/
  | wordEndHalf
deriving DecidableEq, Repr

/-- The sets with an escape of their own. -/
inductive Shorthand where
  | digit
  | space
  | word
deriving DecidableEq, Repr

/-- A set that is asked for by name. -/
inductive SetQuery where
  | named (name : String)
  | ofClass (kind name : String)
deriving DecidableEq, Repr

/-- A character, and whether it is written as a byte of two hexadecimal digits. -/
structure Literal where
  char : Char
  asByte : Bool
deriving DecidableEq, Repr

/-- How two sets are put together. -/
inductive SetOp where
  | inter
  | diff
  | symDiff
deriving DecidableEq, Repr

def SetOp.apply : SetOp → CharSet → CharSet → CharSet
  | .inter, s, t => s.inter t
  | .diff, s, t => s.diff t
  | .symDiff, s, t => s.symDiff t

/-- A set of characters as it is written. -/
inductive SetPattern where
  | empty
  | literal (l : Literal)
  | range (first last : Literal)
  /-- A named set of ASCII characters. -/
  | ascii (negated : Bool) (set : CharSet)
  | query (negated : Bool) (query : SetQuery)
  | shorthand (negated : Bool) (kind : Shorthand)
  | bracket (negated : Bool) (body : SetPattern)
  | union (first second : SetPattern) (others : List SetPattern)
  | op (op : SetOp) (left right : SetPattern)
deriving Repr

/-- An expression as it is written. -/
inductive Pattern where
  | empty
  | flags (change : FlagChange)
  | literal (l : Literal)
  | dot
  | assertion (a : Assertion)
  | query (negated : Bool) (query : SetQuery)
  | shorthand (negated : Bool) (kind : Shorthand)
  | bracket (negated : Bool) (body : SetPattern)
  | repeated (p : Pattern) (least : Nat) (most : Option Nat)
  /-- A group, which is remembered unless it only sets flags. -/
  | group (remembered : Bool) (change : FlagChange) (p : Pattern)
  | alternatives (first second : Pattern) (others : List Pattern)
  | sequence (first second : Pattern) (others : List Pattern)
deriving Repr

namespace SetPattern

/-- Several parts of a set as one. -/
def ofList : List SetPattern → SetPattern
  | [] => .empty
  | [p] => p
  | p :: q :: others => .union p q others

mutual

/-- How deep brackets, unions and operators are nested. -/
def depth : SetPattern → Nat
  | .bracket _ body => body.depth + 1
  | .union first second others => max (max first.depth second.depth) (depthOfAll others) + 1
  | .op _ left right => max left.depth right.depth + 1
  | _ => 0

def depthOfAll : List SetPattern → Nat
  | [] => 0
  | p :: ps => max p.depth (depthOfAll ps)

end

end SetPattern

namespace Pattern

/-- Several patterns in a row as one. -/
def sequenceOf : List Pattern → Pattern
  | [] => .empty
  | [p] => p
  | p :: q :: others => .sequence p q others

/-- Several alternatives as one pattern. -/
def alternativesOf : List Pattern → Pattern
  | [] => .empty
  | [p] => p
  | p :: q :: others => .alternatives p q others

mutual

/-- How deep the parts of a pattern are nested. -/
def depth : Pattern → Nat
  | .bracket _ body => body.depth + 1
  | .repeated p _ _ => p.depth + 1
  | .group _ _ p => p.depth + 1
  | .alternatives first second others =>
    max (max first.depth second.depth) (depthOfAll others) + 1
  | .sequence first second others =>
    max (max first.depth second.depth) (depthOfAll others) + 1
  | _ => 0

def depthOfAll : List Pattern → Nat
  | [] => 0
  | p :: ps => max p.depth (depthOfAll ps)

end

/-- Patterns may not be nested deeper than this. -/
def maxDepth : Nat := 250

end Pattern

end StyleAudit.Regex
