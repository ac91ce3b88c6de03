import StyleAudit.CharSet.Basic

/-!
Regular expressions.

An expression is made of sets of characters and of conditions on places. It says which part of a
text, from one place to another, it matches; nothing in it depends on flags any more.
-/

namespace StyleAudit

/-- A condition on a place in a text. -/
inductive Anchor where
  | textStart
  | textEnd
  | lineStart
  | lineEnd
  /-- A line starts here if a carriage return and a line feed in a row end a line together. -/
  | returnLineStart
  /-- A line ends here if a carriage return and a line feed in a row end a line together. -/
  | returnLineEnd
  /-- A word of the given characters begins or ends here. -/
  | wordBoundary (word : CharSet)
  | notWordBoundary (word : CharSet)
  | wordStart (word : CharSet)
  | wordEnd (word : CharSet)
  | notAfterWord (word : CharSet)
  | notBeforeWord (word : CharSet)
deriving DecidableEq, Repr

namespace Anchor

/-- Whether a condition holds between the characters before and after a place. -/
def holds (before after : Option Char) (a : Anchor) : Bool :=
  let inWord (word : CharSet) (c : Option Char) : Bool := (c.map word.mem).getD false
  match a with
  | .textStart => before.isNone
  | .textEnd => after.isNone
  | .lineStart => before.isNone || before == some '\n'
  | .lineEnd => after.isNone || after == some '\n'
  | .returnLineStart =>
    before.isNone || before == some '\n' || (before == some '\r' && after != some '\n')
  | .returnLineEnd =>
    after.isNone || after == some '\r' || (after == some '\n' && before != some '\r')
  | .wordBoundary word => inWord word before != inWord word after
  | .notWordBoundary word => inWord word before == inWord word after
  | .wordStart word => !inWord word before && inWord word after
  | .wordEnd word => inWord word before && !inWord word after
  | .notAfterWord word => !inWord word before
  | .notBeforeWord word => !inWord word after

end Anchor

inductive Regex where
  | empty
  | chars (set : CharSet)
  | anchor (a : Anchor)
  | cat (a b : Regex)
  | alt (a b : Regex)
  /-- Between `least` and `most` repetitions, without a bound if there is no `most`. -/
  | rep (a : Regex) (least : Nat) (most : Option Nat)
  /-- A part that is remembered. -/
  | capture (a : Regex)
deriving Repr

namespace Regex

/-- Whether an expression only ever matches parts without characters. -/
def isWidthless : Regex → Bool
  | .empty => true
  | .chars _ => false
  | .anchor _ => true
  | .cat a b => a.isWidthless && b.isWidthless
  | .alt a b => a.isWidthless && b.isWidthless
  | .rep a _ most => a.isWidthless || most == some 0
  | .capture a => a.isWidthless

/-- Whether an expression may match a part without characters. -/
def isNullable : Regex → Bool
  | .empty => true
  | .chars _ => false
  | .anchor _ => true
  | .cat a b => a.isNullable && b.isNullable
  | .alt a b => a.isNullable || b.isNullable
  | .rep a least _ => least == 0 || a.isNullable
  | .capture a => a.isNullable

/-- Repeats an expression. One without characters does not change when it is repeated. -/
def times (a : Regex) (least : Nat) (most : Option Nat) : Regex :=
  let (least, most) :=
    if a.isWidthless then (min least 1, some (min (most.getD 1) 1)) else (least, most)
  if most = some 0 then .empty
  else if least = 1 ∧ most = some 1 then a
  else .rep a least most

/-- The sets of expressions that are all sets. -/
def sets? : List Regex → Option (List CharSet)
  | [] => some []
  | .chars set :: rest => (sets? rest).map (set :: ·)
  | _ :: _ => none

/-- Any one of several expressions; several sets are one set. -/
def anyOf (branches : List Regex) : Regex :=
  match sets? branches with
  | some sets => .chars (CharSet.unions sets)
  | none =>
    match branches.reverse with
    | [] => .chars .empty
    | last :: rest => rest.foldl (fun acc r => .alt r acc) last

end Regex

end StyleAudit
