import StyleAudit.Regex.Basic

/-!
The size of the automata for a regular expression.

An expression is matched by two automata on bytes, one for each direction of reading. Every
repetition is written out, and a set of characters takes a state for each way in which the bytes
of its members can go on. An expression may be no larger than either automaton can be.
-/

namespace StyleAudit.Regex

/-- A range of values of one byte. -/
abbrev ByteRange := Nat × Nat

/-- The code points that begin a longer encoding than the one before them. -/
def lengthLimits : List Nat := [0x80, 0x800, 0x10000]

/-- The number of bytes of a character. -/
def encodedLength (n : Nat) : Nat := 1 + (lengthLimits.filter (· ≤ n)).length

/-- The bytes of a character. -/
def encode (n : Nat) : List Nat :=
  match encodedLength n with
  | 1 => [n]
  | 2 => [0xC0 + n / 64, 0x80 + n % 64]
  | 3 => [0xE0 + n / 4096, 0x80 + n / 64 % 64, 0x80 + n % 64]
  | _ => [0xF0 + n / 262144, 0x80 + n / 4096 % 64, 0x80 + n / 64 % 64, 0x80 + n % 64]

/-- Where a range has to be cut so that its parts have encodings of one length. -/
def lengthCut? (first last : Nat) : Option Nat :=
  lengthLimits.find? fun limit => first < limit && limit ≤ last

/-- Where a range has to be cut so that its last bytes run through all values or lie in a row. -/
def blockCut? (first last : Nat) : Option Nat :=
  [64, 4096, 262144].findSome? fun block =>
    if first / block = last / block then none
    else if first % block ≠ 0 then some ((first / block + 1) * block)
    else if last % block ≠ block - 1 then some (last / block * block)
    else none

/-- The sequences of byte ranges that encode the characters of a range. -/
def byteSequences : Nat → Nat → Nat → List (List ByteRange)
  | 0, _, _ => []
  | fuel + 1, first, last =>
    match lengthCut? first last <|> (if last < 0x80 then none else blockCut? first last) with
    | some cut => byteSequences fuel first (cut - 1) ++ byteSequences fuel cut last
    | none => [(encode first).zip (encode last)]

/-- The sequences of a set. No range is cut more often than the fuel allows. -/
def sequencesOf (s : CharSet) : List (List ByteRange) :=
  (s.inter .all).ranges.flatMap fun (first, last) => byteSequences 16 first last

/-- Groups sequences that are not empty by their first ranges, where these follow each other. -/
def groupByHead : List (List ByteRange) → List (ByteRange × List (List ByteRange))
  | [] => []
  | [] :: rest => groupByHead rest
  | (head :: tail) :: rest =>
    match groupByHead rest with
    | (other, tails) :: groups =>
      if other = head then (head, tail :: tails) :: groups
      else (head, [tail]) :: (other, tails) :: groups
    | [] => [(head, [tail])]

/-- A state of the automaton of a set: byte ranges, and the state that each leads to. -/
abbrev ByteState := List (ByteRange × Nat)

/-- The number of a state, which is new if there is none like it. State 0 is the last one. -/
def internState (states : List ByteState) (state : ByteState) : Nat × List ByteState :=
  let i := states.idxOf state
  (i + 1, if i < states.length then states else states ++ [state])

/-- The state from which sequences of at most `depth` bytes can be read. -/
def addState : Nat → List ByteState → List (List ByteRange) → Nat × List ByteState
  | 0, states, _ => (0, states)
  | depth + 1, states, sequences =>
    if sequences.all List.isEmpty then (0, states)
    else
      let (edges, states) := (groupByHead sequences).foldl (fun (edges, states) (head, tails) =>
        let (target, states) := addState depth states tails
        (edges ++ [(head, target)], states)) ([], states)
      internState states edges

/-- The room that a state takes, and what an edge and a branch add to it. -/
def stateRoom : Nat := 32

def edgeRoom : Nat := 8

def branchRoom : Nat := 4

/-- The room of a set when texts are read forwards: like states are one. -/
def setRoom (s : CharSet) : Nat :=
  match s.only? with
  | some n => stateRoom * encodedLength n
  | none =>
    if s.isAscii then 2 * stateRoom + edgeRoom * s.ranges.length
    else
      let (_, states) := addState 5 [] (sequencesOf s)
      states.foldl (fun room state => room + stateRoom + edgeRoom * state.length) stateRoom

/-- The heads of a sequence that are not empty. -/
def headsOf (sequence : List ByteRange) : List (List ByteRange) :=
  (List.range sequence.length).map fun i => sequence.take (i + 1)

/-- The room of a set when texts are read backwards: like heads of sequences are one. -/
def setRoomBackwards (s : CharSet) : Nat :=
  if s.only?.isSome || s.isAscii then setRoom s
  else
    let sequences := sequencesOf s
    let heads := (sequences.flatMap headsOf).eraseDups
    (2 + heads.length) * stateRoom + branchRoom * sequences.length

/-- Whether an automaton reads texts backwards. -/
abbrev Backwards := Bool

/-- The room of an expression by itself, and as one of several alternatives. -/
structure Room where
  alone : Nat
  asBranch : Nat

/-- The room of an expression that shares nothing with other alternatives. -/
def Room.ofAlone (n : Nat) : Room := ⟨n, n + branchRoom⟩

/-- The room of a repetition of an expression that takes `once`. -/
def repetitionRoom (once : Nat) (nullable : Bool) (least : Nat) (most : Option Nat) : Nat :=
  let loop := stateRoom + 2 * branchRoom
  match least, most with
  | 0, some 1 => once + loop + stateRoom
  | 0, none => if nullable then once + 2 * loop + stateRoom else once + loop
  | least, none => least * once + loop
  | least, some most =>
    if least = most then least * once
    else max (least * once) stateRoom + stateRoom + (most - least) * (once + loop)

/-- The room that an expression takes. Alternatives share their ends, and only an automaton that
reads forwards keeps what is remembered. -/
def room (backwards : Backwards) : Regex → Room
  | .empty => .ofAlone stateRoom
  | .chars set => .ofAlone (if backwards then setRoomBackwards set else setRoom set)
  | .anchor _ => .ofAlone stateRoom
  | .cat a b => .ofAlone ((room backwards a).alone + (room backwards b).alone)
  | .alt a b =>
    let branches := (room backwards a).asBranch + (room backwards b).asBranch
    ⟨branches + 2 * stateRoom, branches⟩
  | .rep a least most =>
    .ofAlone (repetitionRoom (room backwards a).alone a.isNullable least most)
  | .capture a => .ofAlone ((room backwards a).alone + if backwards then 0 else 2 * stateRoom)

/-- The greatest room that an automaton may take. -/
def maxRoom : Nat := 10 * 0x100000

/-- The room of what finds the start of a match and of what marks it. -/
def frameRoom : Nat := 7 * stateRoom

/-- Whether an expression is not too large. -/
def isSmall (r : Regex) : Bool :=
  [false, true].all fun backwards => (r.room backwards).alone + frameRoom ≤ maxRoom

end StyleAudit.Regex
