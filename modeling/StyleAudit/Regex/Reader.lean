import StyleAudit.CharSet.Table
import StyleAudit.Regex.Syntax
import StyleAudit.Text.Alphanumeric
import StyleAudit.Text.Blank

/-!
Reading patterns.

Reading fails on anything that is no pattern: an operator without an operand, a bracket without
its partner, a range that runs backwards, an escape without a meaning, a flag or a name that is
given twice, or a look around. The reader holds one frame for each open parenthesis or bracket.
-/

namespace StyleAudit.Regex

/-- Drops blanks and comments; `inComment` says whether the text begins inside a comment. -/
def dropBlanks (inComment : Bool) : List Char → List Char
  | [] => []
  | c :: cs =>
    if inComment then dropBlanks (c != '\n') cs
    else if Text.isBlank c then dropBlanks false cs
    else if c = '#' then dropBlanks true cs
    else c :: cs

/-- Drops what does not count. -/
def skip (verbose : Bool) (cs : List Char) : List Char :=
  if verbose then dropBlanks false cs else cs

/-- What a look past the next character finds; a comment is not passed over, only its mark. -/
def lookPast (verbose : Bool) : List Char → Option Char
  | [] => none
  | _ :: cs =>
    if verbose then
      let rest := match cs.dropWhile Text.isBlank with
        | '#' :: rest => rest.dropWhile Text.isBlank
        | rest => rest
      (rest.head? <|> cs.head?)
    else cs.head?

/-! ### Numbers -/

def isHexDigit (c : Char) : Bool :=
  c.isDigit || ('a' ≤ c && c ≤ 'f') || ('A' ≤ c && c ≤ 'F')

/-- The character with a hexadecimal number. -/
def hexChar? (digits : List Char) : Option Char :=
  let n := CharSet.valueOf 16 (digits.map Char.toUpper)
  if h : n.isValidChar then some (Char.ofNatAux n h) else none

/-- Reads so many hexadecimal digits. -/
def readHexDigits (verbose : Bool) : Nat → List Char → Option (List Char × List Char)
  | 0, cs => some ([], cs)
  | _ + 1, [] => none
  | n + 1, c :: cs =>
    if isHexDigit c then
      (readHexDigits verbose n (skip verbose cs)).map fun (digits, rest) => (c :: digits, rest)
    else none

/-- Reads what stands before a closing brace; gives it and what follows the brace. -/
def readBraced (verbose : Bool) : Nat → List Char → Option (List Char × List Char)
  | 0, _ => none
  | fuel + 1, cs =>
    match skip verbose cs with
    | [] => none
    | '\x7d' :: rest => some ([], rest)
    | c :: rest => (readBraced verbose fuel rest).map fun (body, rest) => (c :: body, rest)

/-- Reads the number of a character: so many digits, or digits in braces. -/
def readHex (verbose : Bool) (count : Nat) (cs : List Char) : Option (Literal × List Char) :=
  match skip verbose cs with
  | '\x7b' :: rest => do
    let (digits, rest) ← readBraced verbose rest.length.succ rest
    if digits.isEmpty || !digits.all isHexDigit then none
    let c ← hexChar? digits
    return (⟨c, false⟩, skip verbose rest)
  | rest => do
    let (digits, rest) ← readHexDigits verbose count rest
    let c ← hexChar? digits
    return (⟨c, count == 2⟩, rest)

/-- Reads decimal digits. -/
def readDigits (verbose : Bool) : Nat → List Char → List Char × List Char
  | 0, cs => ([], cs)
  | fuel + 1, cs =>
    match cs with
    | c :: rest =>
      if c.isDigit then
        let (digits, rest) := readDigits verbose fuel (skip verbose rest)
        (c :: digits, rest)
      else ([], cs)
    | [] => ([], [])

/-- A bound for every count of repetitions. -/
def maxCount : Nat := 0x100000000

/-- Reads a count, with blanks around it. -/
def readCount (verbose : Bool) (cs : List Char) : Option (Nat × List Char) :=
  let cs := cs.dropWhile Text.isBlank
  let (digits, rest) := readDigits verbose cs.length cs
  let n := CharSet.valueOf 10 digits
  if digits.isEmpty || maxCount ≤ n then none
  else some (n, skip verbose (rest.dropWhile Text.isBlank))

/-- Reads the counts of a repetition after its opening brace. -/
def readCounts (verbose : Bool) (cs : List Char) : Option (Nat × Option Nat × List Char) := do
  let (least, rest) ← readCount verbose (skip verbose cs)
  match rest with
  | '\x7d' :: rest => return (least, some least, rest)
  | ',' :: rest =>
    match skip verbose rest with
    | '\x7d' :: rest => return (least, none, rest)
    | rest =>
      let (most, rest) ← readCount verbose rest
      match rest with
      | '\x7d' :: rest => if least ≤ most then return (least, some most, rest) else none
      | _ => none
  | _ => none

/-! ### Escapes -/

/-- What a backslash and what follows it stand for. -/
inductive Escape where
  | literal (l : Literal)
  | query (negated : Bool) (query : SetQuery)
  | shorthand (negated : Bool) (kind : Shorthand)
  | assertion (a : Assertion)

/-- The parts of a text before and after the first occurrence of a mark. -/
def cutAt (mark : List Char) : List Char → Option (List Char × List Char)
  | [] => if mark.isEmpty then some ([], []) else none
  | c :: cs =>
    if mark.isPrefixOf (c :: cs) then some ([], (c :: cs).drop mark.length)
    else (cutAt mark cs).map fun (before, after) => (c :: before, after)

/-- The set that the text in the braces of a named set asks for. -/
def queryOf (body : List Char) : SetQuery :=
  match cutAt ['!', '='] body <|> cutAt [':'] body <|> cutAt ['='] body with
  | some (kind, name) => .ofClass (String.ofList kind) (String.ofList name)
  | none => .named (String.ofList body)

/-- Reads the name of a set after its letter. -/
def readQuery (verbose : Bool) (cs : List Char) : Option (SetQuery × List Char) :=
  match skip verbose cs with
  | [] => none
  | '\\' :: _ => none
  | '\x7b' :: rest =>
    (readBraced verbose rest.length.succ rest).map fun (body, rest) => (queryOf body, rest)
  | c :: rest => some (.named (String.singleton c), skip verbose rest)

/-- Reads the letters and dashes of a special word boundary. -/
def readBoundaryName (verbose : Bool) : Nat → List Char → List Char × List Char
  | 0, cs => ([], cs)
  | fuel + 1, cs =>
    match cs with
    | c :: rest =>
      if c.isAlpha || c == '-' then
        let (name, rest) := readBoundaryName verbose fuel (skip verbose rest)
        (c :: name, rest)
      else ([], cs)
    | [] => ([], [])

/-- Reads what may follow a word boundary: a name in braces, unless these hold a count. -/
def readBoundary (verbose : Bool) (cs : List Char) : Option (Assertion × List Char) :=
  match cs with
  | '\x7b' :: body =>
    let body := skip verbose body
    match readBoundaryName verbose body.length body with
    | ([], []) => none
    | ([], _) => some (.wordBoundary, cs)
    | (name, '\x7d' :: rest) =>
      match String.ofList name with
      | "start" => some (.wordStart, rest)
      | "end" => some (.wordEnd, rest)
      | "start-half" => some (.wordStartHalf, rest)
      | "end-half" => some (.wordEndHalf, rest)
      | _ => none
    | _ => none
  | cs => some (.wordBoundary, cs)

/-- Reads what follows a backslash. -/
def readEscape (verbose : Bool) : List Char → Option (Escape × List Char)
  | [] => none
  | c :: cs =>
    let char (d : Char) : Option (Escape × List Char) := some (.literal ⟨d, false⟩, cs)
    let number (count : Nat) : Option (Escape × List Char) :=
      (readHex verbose count cs).map fun (l, rest) => (.literal l, rest)
    match c with
    | 'x' => number 2
    | 'u' => number 4
    | 'U' => number 8
    | 'p' => (readQuery verbose cs).map fun (q, rest) => (.query false q, rest)
    | 'P' => (readQuery verbose cs).map fun (q, rest) => (.query true q, rest)
    | 'd' => some (.shorthand false .digit, cs)
    | 'D' => some (.shorthand true .digit, cs)
    | 's' => some (.shorthand false .space, cs)
    | 'S' => some (.shorthand true .space, cs)
    | 'w' => some (.shorthand false .word, cs)
    | 'W' => some (.shorthand true .word, cs)
    | 'n' => char '\n'
    | 't' => char '\t'
    | 'r' => char '\r'
    | 'f' => char '\x0c'
    | 'v' => char '\x0b'
    | 'a' => char '\x07'
    | 'A' => some (.assertion .textStart, cs)
    | 'z' => some (.assertion .textEnd, cs)
    | 'B' => some (.assertion .notWordBoundary, cs)
    | 'b' => (readBoundary verbose cs).map fun (a, rest) => (.assertion a, rest)
    | '<' => some (.assertion .wordStart, cs)
    | '>' => some (.assertion .wordEnd, cs)
    | c => if c.toNat < 0x80 && !c.isAlphanum then char c else none

/-! ### Sets of characters -/

/-- The named sets of ASCII characters. -/
def asciiSet? (name : String) : Option CharSet :=
  let of (ranges : List (Nat × Nat)) : Option CharSet := some ⟨ranges⟩
  match name with
  | "alnum" => of [(0x30, 0x39), (0x41, 0x5A), (0x61, 0x7A)]
  | "alpha" => of [(0x41, 0x5A), (0x61, 0x7A)]
  | "ascii" => of [(0, 0x7F)]
  | "blank" => of [(0x09, 0x09), (0x20, 0x20)]
  | "cntrl" => of [(0, 0x1F), (0x7F, 0x7F)]
  | "digit" => of [(0x30, 0x39)]
  | "graph" => of [(0x21, 0x7E)]
  | "lower" => of [(0x61, 0x7A)]
  | "print" => of [(0x20, 0x7E)]
  | "punct" => of [(0x21, 0x2F), (0x3A, 0x40), (0x5B, 0x60), (0x7B, 0x7E)]
  | "space" => of [(0x09, 0x0D), (0x20, 0x20)]
  | "upper" => of [(0x41, 0x5A)]
  | "word" => of [(0x30, 0x39), (0x41, 0x5A), (0x5F, 0x5F), (0x61, 0x7A)]
  | "xdigit" => of [(0x30, 0x39), (0x41, 0x46), (0x61, 0x66)]
  | _ => none

/-- Reads a named set after its opening bracket. -/
def readAsciiSet : List Char → Option (SetPattern × List Char)
  | ':' :: cs =>
    let (negated, cs) := match cs with
      | '^' :: ds => (true, ds)
      | ds => (false, ds)
    let name := cs.takeWhile (· != ':')
    match cs.drop name.length with
    | ':' :: ']' :: rest =>
      (asciiSet? (String.ofList name)).map fun set => (.ascii negated set, rest)
    | _ => none
  | _ => none

/-- Reads one character or escape of a set; an escape that is a condition is no member. -/
def readMember (verbose : Bool) : List Char → Option (SetPattern × List Char)
  | [] => none
  | '\\' :: cs =>
    match readEscape verbose cs with
    | some (.literal l, rest) => some (.literal l, rest)
    | some (.query negated q, rest) => some (.query negated q, rest)
    | some (.shorthand negated kind, rest) => some (.shorthand negated kind, rest)
    | _ => none
  | c :: cs => some (.literal ⟨c, false⟩, cs)

/-- Reads a member, or a range of two of them. -/
def readMemberOrRange (verbose : Bool) (cs : List Char) : Option (SetPattern × List Char) := do
  let (first, rest) ← readMember verbose cs
  let rest := skip verbose rest
  let next := lookPast verbose rest
  match rest with
  | '-' :: more =>
    if next = some ']' ∨ next = some '-' then return (first, rest)
    let (last, rest) ← readMember verbose (skip verbose more)
    match first, last with
    | .literal a, .literal b => if a.char ≤ b.char then return (.range a b, rest) else none
    | _, _ => none
  | rest => return (first, rest)

/-- What has been read of a set: the part before the last operator, and the parts since. -/
structure SetFrame where
  negated : Bool
  left : Option (SetOp × SetPattern)
  /-- The parts since the last operator, the last one first. -/
  parts : List SetPattern

namespace SetFrame

def add (f : SetFrame) (p : SetPattern) : SetFrame := { f with parts := p :: f.parts }

/-- The set without its brackets. -/
def body (f : SetFrame) : SetPattern :=
  let right := SetPattern.ofList f.parts.reverse
  match f.left with
  | none => right
  | some (op, left) => .op op left right

def operator (f : SetFrame) (op : SetOp) : SetFrame :=
  { f with left := some (op, f.body), parts := [] }

end SetFrame

/-- Reads dashes at the head of a set. -/
def readDashes (verbose : Bool) : Nat → List Char → List SetPattern × List Char
  | 0, cs => ([], cs)
  | fuel + 1, cs =>
    match cs with
    | '-' :: rest =>
      let (dashes, rest) := readDashes verbose fuel (skip verbose rest)
      (.literal ⟨'-', false⟩ :: dashes, rest)
    | cs => ([], cs)

/-- Reads the head of a set after its bracket: `^`, and dashes or a bracket that stand first. -/
def readSetHead (verbose : Bool) (cs : List Char) : SetFrame × List Char :=
  let cs := skip verbose cs
  let (negated, cs) := match cs with
    | '^' :: ds => (true, skip verbose ds)
    | ds => (false, ds)
  match readDashes verbose cs.length cs with
  | ([], ']' :: rest) => (⟨negated, none, [.literal ⟨']', false⟩]⟩, skip verbose rest)
  | (dashes, rest) => (⟨negated, none, dashes⟩, rest)

/-- Reads the rest of a set with the frames of the sets that hold it. -/
def readSet (verbose : Bool) : Nat → SetFrame → List SetFrame → List Char →
    Option (Pattern × List Char)
  | 0, _, _, _ => none
  | fuel + 1, frame, outer, cs =>
    match skip verbose cs with
    | [] => none
    | ']' :: rest =>
      match outer with
      | [] => some (.bracket frame.negated frame.body, rest)
      | parent :: outer =>
        readSet verbose fuel (parent.add (.bracket frame.negated frame.body)) outer rest
    | '&' :: '&' :: rest => readSet verbose fuel (frame.operator .inter) outer rest
    | '-' :: '-' :: rest => readSet verbose fuel (frame.operator .diff) outer rest
    | '~' :: '~' :: rest => readSet verbose fuel (frame.operator .symDiff) outer rest
    | '[' :: rest =>
      match readAsciiSet rest with
      | some (p, rest) => readSet verbose fuel (frame.add p) outer rest
      | none =>
        let (inner, rest) := readSetHead verbose rest
        readSet verbose fuel inner (frame :: outer) rest
    | cs =>
      match readMemberOrRange verbose cs with
      | some (p, rest) => readSet verbose fuel (frame.add p) outer rest
      | none => none

/-! ### Groups -/

def flagOf? : Char → Option Flag
  | 'i' => some .caseless
  | 'm' => some .multiLine
  | 's' => some .dotAll
  | 'U' => some .swapGreed
  | 'u' => some .unicode
  | 'R' => some .carriageReturn
  | 'x' => some .verbose
  | _ => none

/-- Reads flags up to a colon or a parenthesis; none is given twice, and a dash has one behind. -/
def readFlags (negative : Bool) (change : FlagChange) :
    List Char → Option (FlagChange × List Char)
  | [] => none
  | c :: cs =>
    if c = ':' ∨ c = ')' then
      if negative && change.cleared.isEmpty then none else some (change, c :: cs)
    else if c = '-' then
      if negative then none else readFlags true change cs
    else
      match flagOf? c with
      | none => none
      | some flag =>
        if (change.set ++ change.cleared).contains flag then none
        else if negative then
          readFlags true { change with cleared := change.cleared ++ [flag] } cs
        else readFlags false { change with set := change.set ++ [flag] } cs

/-- Reads the name of a group up to its closing mark. -/
def readName (cs : List Char) : Option (List Char × List Char) :=
  let name := cs.takeWhile (· != '>')
  let inside (c : Char) : Bool :=
    c == '_' || c == '.' || c == '[' || c == ']' || Text.isAlphanumeric c
  match name, cs.drop name.length with
  | c :: more, '>' :: rest =>
    if (c == '_' || Text.isAlphabetic c) && more.all inside then some (name, rest) else none
  | _, _ => none

/-- The heads of groups. -/
inductive GroupHead where
  | plain
  | named (name : List Char)
  | flagged (change : FlagChange)
  /-- Flags for what follows in the enclosing group. -/
  | directive (change : FlagChange)

/-- Reads what follows an opening parenthesis; a look around is refused. -/
def readHead (verbose : Bool) (cs : List Char) : Option (GroupHead × List Char) :=
  let named (cs : List Char) : Option (GroupHead × List Char) :=
    (readName cs).map fun (name, rest) => (.named name, rest)
  match skip verbose cs with
  | '?' :: 'P' :: '<' :: rest => named rest
  | '?' :: '<' :: rest => named rest
  | '?' :: rest =>
    match readFlags false ⟨[], []⟩ rest with
    | some (change, ':' :: rest) => some (.flagged change, rest)
    | some (change, ')' :: rest) =>
      if change.set.isEmpty && change.cleared.isEmpty then none
      else some (.directive change, rest)
    | _ => none
  | rest => some (.plain, rest)

/-- A group that is open. -/
structure GroupFrame where
  /-- The alternatives of the enclosing group that are complete, the last one first. -/
  branches : List Pattern
  /-- What stands before the group in its sequence, the last part first. -/
  parts : List Pattern
  remembered : Bool
  change : FlagChange
  /-- Whether blanks count outside the group. -/
  verbose : Bool

/-- Where the reader stands. -/
structure ReaderState where
  groups : List GroupFrame
  branches : List Pattern
  parts : List Pattern
  verbose : Bool
  /-- The names of groups so far. -/
  names : List (List Char)

namespace ReaderState

def push (s : ReaderState) (p : Pattern) : ReaderState := { s with parts := p :: s.parts }

/-- Ends an alternative. -/
def bar (s : ReaderState) : ReaderState :=
  { s with branches := Pattern.sequenceOf s.parts.reverse :: s.branches, parts := [] }

/-- What the current group holds. -/
def body (s : ReaderState) : Pattern := Pattern.alternativesOf s.bar.branches.reverse

def openGroup (s : ReaderState) (remembered : Bool) (change : FlagChange) : ReaderState :=
  { s with
    groups := ⟨s.branches, s.parts, remembered, change, s.verbose⟩ :: s.groups
    branches := []
    parts := []
    verbose := change.apply .verbose s.verbose }

/-- Takes the head of a group. A name may be given only once. -/
def enter (s : ReaderState) : GroupHead → Option ReaderState
  | .plain => some (s.openGroup true ⟨[], []⟩)
  | .named name =>
    if s.names.contains name then none
    else some ({ s with names := name :: s.names }.openGroup true ⟨[], []⟩)
  | .flagged change => some (s.openGroup false change)
  | .directive change =>
    some { s.push (.flags change) with verbose := change.apply .verbose s.verbose }

/-- Ends the innermost group, if one is open. -/
def closeGroup? (s : ReaderState) : Option ReaderState :=
  match s.groups with
  | [] => none
  | frame :: groups =>
    some { s with
      groups := groups
      branches := frame.branches
      parts := .group frame.remembered frame.change s.body :: frame.parts
      verbose := frame.verbose }

/-- Repeats the last part, if it can be repeated. -/
def repeatLast? (s : ReaderState) (least : Nat) (most : Option Nat) : Option ReaderState :=
  match s.parts with
  | [] => none
  | .flags _ :: _ => none
  | p :: rest => some { s with parts := .repeated p least most :: rest }

end ReaderState

/-- Drops the mark that makes a repetition prefer few. -/
def dropLazy : List Char → List Char
  | '?' :: cs => cs
  | cs => cs

/-- Reads one part of a pattern; gives the new state and what follows. -/
def readPart (s : ReaderState) (cs : List Char) : Option (ReaderState × List Char) :=
  match cs with
  | [] => none
  | '(' :: rest => do
    let (head, rest) ← readHead s.verbose rest
    return (← s.enter head, rest)
  | ')' :: rest => s.closeGroup?.map fun s => (s, rest)
  | '|' :: rest => some (s.bar, rest)
  | '[' :: rest => do
    let (frame, rest) := readSetHead s.verbose rest
    let (p, rest) ← readSet s.verbose rest.length.succ frame [] rest
    return (s.push p, rest)
  | '?' :: rest => (s.repeatLast? 0 (some 1)).map fun s => (s, dropLazy rest)
  | '*' :: rest => (s.repeatLast? 0 none).map fun s => (s, dropLazy rest)
  | '+' :: rest => (s.repeatLast? 1 none).map fun s => (s, dropLazy rest)
  | '\x7b' :: rest => do
    let (least, most, rest) ← readCounts s.verbose rest
    return (← s.repeatLast? least most, dropLazy (skip s.verbose rest))
  | '\\' :: rest => do
    match ← readEscape s.verbose rest with
    | (.literal l, rest) => return (s.push (.literal l), rest)
    | (.query negated q, rest) => return (s.push (.query negated q), rest)
    | (.shorthand negated kind, rest) => return (s.push (.shorthand negated kind), rest)
    | (.assertion a, rest) => return (s.push (.assertion a), rest)
  | '.' :: rest => some (s.push .dot, rest)
  | '^' :: rest => some (s.push (.assertion .lineStart), rest)
  | '$' :: rest => some (s.push (.assertion .lineEnd), rest)
  | c :: rest => some (s.push (.literal ⟨c, false⟩), rest)

/-- Reads the rest of a pattern. -/
def readParts : Nat → ReaderState → List Char → Option Pattern
  | 0, _, _ => none
  | fuel + 1, s, cs =>
    match skip s.verbose cs with
    | [] => if s.groups.isEmpty then some s.body else none
    | cs =>
      match readPart s cs with
      | some (s, rest) => readParts fuel s rest
      | none => none

/-- Reads a pattern that is not nested too deep. -/
def Pattern.parse? (source : String) : Option Pattern := do
  let cs := source.toList
  let p ← readParts cs.length.succ ⟨[], [], [], false, []⟩ cs
  if p.depth ≤ Pattern.maxDepth then some p else none

end StyleAudit.Regex
