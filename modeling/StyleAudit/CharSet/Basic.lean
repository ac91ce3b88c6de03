/-!
Sets of characters.

A set is a list of ranges of code points in increasing order, with a gap between any two of them.
`ofRanges` brings any list of ranges into this form.
-/

namespace StyleAudit

/-- A set of characters. -/
structure CharSet where
  /-- First and last code points of the ranges, in increasing order. -/
  ranges : List (Nat × Nat)
deriving DecidableEq, Repr, Inhabited

namespace CharSet

/-- The greatest code point. -/
def maxCode : Nat := 0x10FFFF

def contains (s : CharSet) (n : Nat) : Bool :=
  s.ranges.any fun (first, last) => first ≤ n && n ≤ last

def mem (s : CharSet) (c : Char) : Bool := s.contains c.toNat

def empty : CharSet := ⟨[]⟩

/-- Every character. The code points between the two ranges stand for no character. -/
def all : CharSet := ⟨[(0, 0xD7FF), (0xE000, maxCode)]⟩

/-- Joins a range with those after it that it meets. -/
def joinRanges (first last : Nat) : List (Nat × Nat) → List (Nat × Nat)
  | [] => [(first, last)]
  | (a, b) :: rest =>
    if a ≤ last + 1 then joinRanges first (max last b) rest
    else (first, last) :: joinRanges a b rest

/-- The set of the code points in some ranges. -/
def ofRanges (ranges : List (Nat × Nat)) : CharSet :=
  match ranges.mergeSort fun r s => r.1 ≤ s.1 with
  | [] => empty
  | (first, last) :: rest => ⟨joinRanges first last rest⟩

def range (first last : Char) : CharSet := ⟨[(first.toNat, last.toNat)]⟩

def single (c : Char) : CharSet := range c c

def union (s t : CharSet) : CharSet := ofRanges (s.ranges ++ t.ranges)

def interRanges (r s : List (Nat × Nat)) : List (Nat × Nat) :=
  match r, s with
  | [], _ => []
  | _, [] => []
  | (a, b) :: r, (c, d) :: s =>
    let rest := if b < d then interRanges r ((c, d) :: s) else interRanges ((a, b) :: r) s
    if max a c ≤ min b d then (max a c, min b d) :: rest else rest
termination_by r.length + s.length

def inter (s t : CharSet) : CharSet := ⟨interRanges s.ranges t.ranges⟩

/-- The gaps between ranges from a code point on. -/
def gapsFrom (start : Nat) : List (Nat × Nat) → List (Nat × Nat)
  | [] => if start ≤ maxCode then [(start, maxCode)] else []
  | (first, last) :: rest =>
    if start < first then (start, first - 1) :: gapsFrom (last + 1) rest
    else gapsFrom (last + 1) rest

/-- The characters that are not in a set. -/
def compl (s : CharSet) : CharSet := inter all ⟨gapsFrom 0 s.ranges⟩

def diff (s t : CharSet) : CharSet := s.inter t.compl

/-- The characters in exactly one of two sets. -/
def symDiff (s t : CharSet) : CharSet := (s.diff t).union (t.diff s)

def unions (sets : List CharSet) : CharSet := ofRanges (sets.flatMap ranges)

def isEmpty (s : CharSet) : Bool := s.ranges.isEmpty

/-- Whether a set holds ASCII characters only. -/
def isAscii (s : CharSet) : Bool := s.ranges.all fun (_, last) => last < 0x80

/-- The only member of a set that has just one. -/
def only? (s : CharSet) : Option Nat :=
  match s.ranges with
  | [(first, last)] => if first = last then some first else none
  | _ => none

end CharSet

end StyleAudit
