import StyleAudit.Regex.Basic

/-!
Matching regular expressions.

An expression relates the places of a text: from one place to another if it matches what lies
between. The relation of an expression follows from those of its parts, so each part is looked at
once, however deep repetitions are nested. A relation has a row for each place, and a row is a
number whose bits are the places that can be reached.
-/

namespace StyleAudit.Regex

/-- A relation between places. -/
abbrev Reach := Array Nat

namespace Reach

/-- The relation that holds from every place to the places that `f` gives for it. -/
def ofRows (places : Nat) (f : Nat → Nat) : Reach :=
  ((List.range places).map f).toArray

/-- Every place reaches itself. -/
def identity (places : Nat) : Reach := ofRows places fun i => 1 <<< i

def union (r s : Reach) : Reach := r.zipWith (· ||| ·) s

/-- The places that the members of a row reach; the count bounds the members. -/
def fromRow (s : Reach) : Nat → Nat → Nat
  | 0, _ => 0
  | fuel + 1, row =>
    if row = 0 then 0
    else
      let last := row.log2
      (s[last]?.getD 0) ||| fromRow s fuel (row ^^^ (1 <<< last))

/-- First one relation, then another. -/
def comp (r s : Reach) : Reach := r.map (s.fromRow s.size)

/-- A relation `n` times in a row. -/
def power (r : Reach) (n : Nat) : Reach :=
  if n = 0 then identity r.size
  else
    let half := power r (n / 2)
    let square := half.comp half
    if n % 2 = 1 then square.comp r else square

/-- Also allows what goes through place `k`. -/
def through (r : Reach) (k : Nat) : Reach :=
  let rowOfK := r[k]?.getD 0
  r.map fun row => if row.testBit k then row ||| rowOfK else row

/-- A relation any number of times in a row. -/
def closure (r : Reach) : Reach :=
  (List.range r.size).foldl through (r.union (identity r.size))

def isEmpty (r : Reach) : Bool := r.all (· == 0)

end Reach

/-- How an expression relates the places of a text. -/
def reach (text : Array Char) : Regex → Reach
  | .empty => Reach.identity (text.size + 1)
  | .chars set => Reach.ofRows (text.size + 1) fun i =>
      match text[i]? with
      | some c => if set.mem c then 1 <<< (i + 1) else 0
      | none => 0
  | .anchor a => Reach.ofRows (text.size + 1) fun i =>
      let before := if i = 0 then none else text[i - 1]?
      if a.holds before text[i]? then 1 <<< i else 0
  | .cat a b => (reach text a).comp (reach text b)
  | .alt a b => (reach text a).union (reach text b)
  | .rep a least most =>
    let once := reach text a
    let atLeast := once.power least
    match most with
    | none => atLeast.comp once.closure
    | some most =>
      atLeast.comp ((once.union (Reach.identity (text.size + 1))).power (most - least))
  | .capture a => reach text a

/-- Whether some part of a text matches. -/
def isMatch (r : Regex) (text : String) : Bool :=
  !(r.reach text.toList.toArray).isEmpty

end StyleAudit.Regex
