import StyleAudit.Error

/-!
Globs: their parts, and reading them from text.

A glob is a list of tokens. A `**` is recursive only where it is a whole component; anywhere else
its two stars are plain ones.
-/

namespace StyleAudit.Glob

inductive Token where
  | literal (c : Char)
  /-- Any byte but the separator. -/
  | any
  /-- Any bytes but separators. -/
  | star
  /-- Any leading components, the separator after them included. -/
  | leading
  /-- A separator and everything after it. -/
  | trailing
  /-- A separator, or any components between two separators. -/
  | between
  /-- One byte of a class, or one that is not in it. -/
  | oneOf (negated : Bool) (ranges : List (Char × Char))
  /-- Any one of several globs. -/
  | alternatives (branches : List (List Token))
deriving Repr

/-- What reading depends on. -/
structure Dialect where
  /-- Whether a bracket without its end is an ordinary character. -/
  looseBrackets : Bool

/-- A class being read. -/
structure ClassState where
  /-- The ranges so far, last first. -/
  ranges : List (Char × Char)
  /-- Whether a dash waits for the end of its range. -/
  pending : Bool
  /-- Whether nothing of the class has been read. -/
  fresh : Bool

/-- Ends the range that the last character opened. -/
def ClassState.close (s : ClassState) (c : Char) : Except GlobFault ClassState :=
  match s.ranges with
  | (first, _) :: rest =>
    if c < first then .error (.invalidRange first c)
    else .ok ⟨(first, c) :: rest, false, false⟩
  | [] => .ok ⟨[(c, c)], false, false⟩

/-- Takes one character of a class that does not end it. -/
def ClassState.push (s : ClassState) (c : Char) : Except GlobFault ClassState :=
  if c = '-' ∧ ¬s.fresh ∧ ¬s.pending then .ok { s with pending := true }
  else if s.pending then s.close c
  else .ok ⟨(c, c) :: s.ranges, false, false⟩

/-- The ranges of a class whose end has been reached. -/
def ClassState.finish (s : ClassState) : List (Char × Char) :=
  (if s.pending then ('-', '-') :: s.ranges else s.ranges).reverse

/-- How the characters after an opening bracket read. -/
inductive ClassResult where
  | closed (ranges : List (Char × Char)) (rest : List Char)
  | unclosed
  | faulty (fault : GlobFault)

/-- Reads a class up to its closing bracket, which may also stand first as a member. -/
def readClass (s : ClassState) : List Char → ClassResult
  | [] => .unclosed
  | c :: cs =>
    if c = ']' ∧ ¬s.fresh then .closed s.finish cs
    else
      match s.push c with
      | .error fault => .faulty fault
      | .ok s => readClass s cs

/-- Reads a class after its opening bracket; gives whether it is negated. -/
def readBracket : List Char → Bool × ClassResult
  | [] => (false, .unclosed)
  | c :: cs =>
    let start : ClassState := ⟨[], false, true⟩
    if c = '!' ∨ c = '^' then (true, readClass start cs) else (false, readClass start (c :: cs))

/-- A group of alternatives that is open. -/
structure Group where
  /-- The tokens before the group, last first. -/
  outer : List Token
  /-- The branches that are complete, last first. -/
  branches : List (List Token)

/-- Where the reader stands. -/
structure State where
  groups : List Group
  /-- The tokens of the current branch, last first. -/
  tokens : List Token
  /-- The character before the next one. -/
  previous : Option Char
  /-- Whether brackets have become ordinary characters. -/
  plainBrackets : Bool

namespace State

def push (s : State) (token : Token) (c : Char) : State :=
  { s with tokens := token :: s.tokens, previous := some c }

def openGroup (s : State) : State :=
  { s with groups := ⟨s.tokens, []⟩ :: s.groups, tokens := [], previous := some '\x7b' }

/-- Ends the innermost group, if one is open. -/
def closeGroup? (s : State) : Option State :=
  match s.groups with
  | [] => none
  | ⟨outer, branches⟩ :: groups =>
    let all := (s.tokens.reverse :: branches).reverse
    some { s with
      groups := groups, tokens := .alternatives all :: outer, previous := some '\x7d' }

/-- A comma separates branches inside a group and is an ordinary character outside. -/
def comma (s : State) : State :=
  match s.groups with
  | [] => s.push (.literal ',') ','
  | ⟨outer, branches⟩ :: groups =>
    { s with
      groups := ⟨outer, s.tokens.reverse :: branches⟩ :: groups
      tokens := []
      previous := some ',' }

/-- Two plain stars. -/
def pushStars (s : State) : State :=
  { s with tokens := .star :: .star :: s.tokens, previous := some '*' }

/-- Replaces the separator before a recursive part by that part. -/
def replaceLast (s : State) (token : Token) (last : Char) : State :=
  match s.tokens with
  | .leading :: rest => { s with tokens := .leading :: rest, previous := some last }
  | .trailing :: rest => { s with tokens := .trailing :: rest, previous := some last }
  | _ :: rest => { s with tokens := token :: rest, previous := some last }
  | [] => { s with tokens := [token], previous := some last }

/-- Whether a recursive part may begin after the character before it. -/
def atComponentStart (s : State) : Bool :=
  s.previous == some '/' ||
    (!s.groups.isEmpty && (s.previous == some ',' || s.previous == some '\x7b'))

/-- Whether a recursive part may end before `c` inside a group. -/
def endsBranch (s : State) (c : Char) : Bool :=
  !s.groups.isEmpty && (c == ',' || c == '\x7d')

/--
Takes two stars, given the characters after them. Gives the new state and what is left: a
separator after a recursive part is taken with it.
-/
def doubleStar (s : State) (cs : List Char) : State × List Char :=
  if s.tokens.isEmpty then
    match cs with
    | [] => (s.push .leading '*', [])
    | '/' :: rest => (s.push .leading '/', rest)
    | rest => (s.pushStars, rest)
  else if s.atComponentStart then
    match cs with
    | [] => (s.replaceLast .trailing '*', [])
    | '/' :: rest => (s.replaceLast .between '/', rest)
    | c :: rest =>
      if s.endsBranch c then (s.replaceLast .trailing '*', c :: rest)
      else (s.pushStars, c :: rest)
  else (s.pushStars, cs)

end State

theorem State.length_doubleStar (s : State) (cs : List Char) :
    (s.doubleStar cs).2.length ≤ cs.length := by
  unfold State.doubleStar
  split
  · split <;> simp
  · split
    · split
      · simp
      · simp
      · split <;> simp
    · simp

theorem length_readClass {s : ClassState} {cs rest : List Char} {ranges : List (Char × Char)}
    (h : readClass s cs = .closed ranges rest) : rest.length < cs.length := by
  induction cs generalizing s with
  | nil => simp [readClass] at h
  | cons c cs ih =>
    rw [readClass] at h
    split at h
    · simp only [ClassResult.closed.injEq] at h
      simp [h.2]
    · split at h
      · simp at h
      · have := ih h
        simp only [List.length_cons]
        omega

theorem length_readBracket {cs rest : List Char} {negated : Bool} {ranges : List (Char × Char)}
    (h : readBracket cs = (negated, .closed ranges rest)) : rest.length < cs.length := by
  unfold readBracket at h
  split at h
  · simp at h
  · dsimp only at h
    split at h
    · have := length_readClass (Prod.mk.inj h).2
      simp only [List.length_cons]
      omega
    · exact length_readClass (Prod.mk.inj h).2

/-- Reads the rest of a glob. -/
def readFrom (d : Dialect) (s : State) (source : List Char) : Except GlobFault (List Token) :=
  match source with
  | [] => if s.groups.isEmpty then .ok s.tokens.reverse else .error .unclosedGroup
  | c :: cs =>
    if c = '?' then readFrom d (s.push .any c) cs
    else if c = '*' then
      match cs with
      | '*' :: rest => readFrom d (s.doubleStar rest).1 (s.doubleStar rest).2
      | cs => readFrom d (s.push .star c) cs
    else if c = '[' ∧ ¬s.plainBrackets then
      match _h : readBracket cs with
      | (negated, .closed ranges rest) => readFrom d (s.push (.oneOf negated ranges) ']') rest
      | (_, .faulty fault) => .error fault
      | (_, .unclosed) =>
        if d.looseBrackets then
          readFrom d { s.push (.literal c) c with plainBrackets := true } cs
        else .error .unclosedClass
    else if c = '\x7b' then readFrom d s.openGroup cs
    else if c = '\x7d' then
      match s.closeGroup? with
      | some s => readFrom d s cs
      | none => .error .unopenedGroup
    else if c = ',' then readFrom d s.comma cs
    else if c = '\\' then
      match cs with
      | [] => .error .danglingEscape
      | e :: rest => readFrom d (s.push (.literal e) e) rest
    else readFrom d (s.push (.literal c) c) cs
termination_by source.length
decreasing_by
  all_goals simp only [List.length_cons]
  · omega
  · have := s.length_doubleStar rest
    omega
  · omega
  · have := length_readBracket _h
    omega
  all_goals omega

end StyleAudit.Glob

namespace StyleAudit

/-- A glob that has been read. -/
structure Glob where
  source : String
  tokens : List Glob.Token
deriving Repr

namespace Glob

/-- Brackets have to be closed. -/
def strict : Dialect := ⟨false⟩

/-- A bracket without its end is an ordinary character. -/
def loose : Dialect := ⟨true⟩

def parse (d : Dialect) (source : String) : Except GlobError Glob :=
  match readFrom d ⟨[], [], none, false⟩ source.toList with
  | .ok tokens => .ok ⟨source, tokens⟩
  | .error fault => .error ⟨source, fault⟩

/-- Characters with a meaning in globs. -/
def isSpecial (c : Char) : Bool :=
  c == '?' || c == '*' || c == '[' || c == ']' || c == '\x7b' || c == '\x7d'

/-- Writes a text so that a glob takes it literally: special characters go into brackets. -/
def escape (s : String) : String :=
  String.ofList (s.toList.flatMap fun c => if isSpecial c then ['[', c, ']'] else [c])

end Glob

end StyleAudit
