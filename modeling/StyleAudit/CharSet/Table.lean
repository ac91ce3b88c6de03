import StyleAudit.CharSet.Basic

/-!
Tables of characters as text.

A set is written as the hexadecimal numbers of its characters and ranges, as in `41-5A AA`. A
partition of all code points is written as its runs, as in `Cc:32 Zs Po:3`: a label, and how many
code points in a row have it.
-/

namespace StyleAudit.CharSet

/-- The words of a text, which blanks and line ends separate. -/
def words (text : String) : List (List Char) :=
  let step := fun (state : List Char × List (List Char)) (c : Char) =>
    if c == ' ' || c == '\n' then
      if state.1.isEmpty then state else ([], state.1.reverse :: state.2)
    else (c :: state.1, state.2)
  let (word, done) := text.toList.foldl step ([], [])
  (if word.isEmpty then done else word.reverse :: done).reverse

/-- The value of a decimal digit, or of a hexadecimal one in upper case. -/
def digitValue (c : Char) : Nat :=
  if c.isDigit then c.toNat - '0'.toNat else c.toNat - 'A'.toNat + 10

/-- The value of digits in a base. -/
def valueOf (base : Nat) (digits : List Char) : Nat :=
  digits.foldl (fun n d => n * base + digitValue d) 0

/-- The parts of a word before and after a mark; without the mark there is only the first. -/
def splitAtMark (mark : Char) (word : List Char) : List Char × List Char :=
  (word.takeWhile (· != mark), (word.dropWhile (· != mark)).drop 1)

/-- Reads one character or range of a set. -/
def readRange (word : List Char) : Nat × Nat :=
  match splitAtMark '-' word with
  | (first, []) => (valueOf 16 first, valueOf 16 first)
  | (first, last) => (valueOf 16 first, valueOf 16 last)

/-- The set that a text describes. -/
def ofText (text : String) : CharSet :=
  ofRanges ((words text).map readRange)

/-- A row of code points with the same label. -/
structure Run where
  label : String
  first : Nat
  last : Nat

/-- Reads the runs of a partition; the first one begins at code point `start`. -/
def readRuns (start : Nat) : List (List Char) → List Run
  | [] => []
  | word :: rest =>
    let (label, count) := splitAtMark ':' word
    let length := if count.isEmpty then 1 else valueOf 10 count
    ⟨String.ofList label, start, start + length - 1⟩ :: readRuns (start + length) rest

/-- The partition that a text describes. -/
def runsOf (text : String) : List Run :=
  readRuns 0 (words text)

/-- The characters whose label satisfies a condition. -/
def ofRuns (runs : List Run) (p : String → Bool) : CharSet :=
  ofRanges ((runs.filter fun r => p r.label).map fun r => (r.first, r.last))

end StyleAudit.CharSet
