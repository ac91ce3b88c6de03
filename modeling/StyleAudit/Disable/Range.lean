import StyleAudit.Disable.Directive
import StyleAudit.Sheet.Walk
import StyleAudit.Warning

/-!
Disabled ranges: the lines on which directive comments suppress warnings.
-/

namespace StyleAudit

/-- The lines on which warnings of one rule, or of every rule, are suppressed. -/
structure DisabledRange where
  /-- Nothing stands for every rule. -/
  rule : Option String
  start : Nat
  /-- Nothing stands for the end of the input. -/
  stop : Option Nat
  /-- Where the comment that opened the range stands. -/
  comment : Position
  description : Option String
deriving DecidableEq, Repr

namespace DisabledRange

/-- The name under which a range for every rule is reported. -/
def allRules : String := "all"

def ruleName (r : DisabledRange) : String :=
  r.rule.getD allRules

def coversLine (r : DisabledRange) (line : Nat) : Bool :=
  r.start ≤ line && (match r.stop with
    | some stop => line ≤ stop
    | none => true)

def coversRule (r : DisabledRange) (rule : String) : Bool :=
  match r.rule with
  | some name => name == rule
  | none => true

def covers (r : DisabledRange) (w : Warning) : Bool :=
  r.coversLine w.line && r.coversRule w.rule

/-- Whether `rules` name a range, so that it ends; an empty list names every range. -/
def isNamedBy (rules : List String) (r : DisabledRange) : Bool :=
  rules.isEmpty || (match r.rule with
    | some rule => rules.contains rule
    | none => false)

/-- The ranges that a directive declares: one for each rule, or one for all. -/
def declaredBy (d : Directive) (start : Nat) (stop : Option Nat) (comment : Position) :
    List DisabledRange :=
  let rules := if d.rules.isEmpty then [none] else d.rules.map some
  rules.map fun rule => ⟨rule, start, stop, comment, d.description⟩

end DisabledRange

/-- What is known of the ranges while the directives are taken one after the other. -/
structure RangeCollector where
  ranges : List DisabledRange
  /-- The places among the ranges of those that are open. -/
  opened : List Nat

namespace RangeCollector

def start : RangeCollector := ⟨[], []⟩

/-- Adds ranges that have an end. -/
def add (c : RangeCollector) (rs : List DisabledRange) : RangeCollector :=
  { c with ranges := c.ranges ++ rs }

/-- Adds ranges that stay open. -/
def addOpen (c : RangeCollector) (rs : List DisabledRange) : RangeCollector :=
  ⟨c.ranges ++ rs, c.opened ++ List.range' c.ranges.length rs.length⟩

/-- Ends the open ranges that `rules` name. -/
def close (c : RangeCollector) (rules : List String) (line : Nat) : RangeCollector where
  ranges := c.ranges.mapIdx fun i r =>
    if c.opened.contains i && r.isNamedBy rules then { r with stop := some line } else r
  opened := c.opened.filter fun i => !c.ranges[i]?.any (DisabledRange.isNamedBy rules)

/-- Takes a directive whose comment stands at a location. -/
def take (c : RangeCollector) (d : Directive) (l : Location) : RangeCollector :=
  let line := l.start.line
  match d.command with
  | .disable => c.addOpen (DisabledRange.declaredBy d line none l.start)
  | .disableLine => c.add (DisabledRange.declaredBy d line (some line) l.start)
  | .disableNextLine =>
    let next := Position.following l.stop.line
    c.add (DisabledRange.declaredBy d next (some next) l.start)
  | .enable => c.close d.rules line

/-- Takes a comment; one without a source or without a directive changes nothing. -/
def takeComment (c : RangeCollector) (comment : Comment) : RangeCollector :=
  match comment.source, Directive.parse? comment.text with
  | some source, some d => c.take d source.location
  | _, _ => c

end RangeCollector

namespace DisabledRange

/-- The ranges that the comments of a sheet declare. -/
def ofSheet (s : Sheet) : List DisabledRange :=
  (s.comments.foldl RangeCollector.takeComment RangeCollector.start).ranges

/-- The warnings that no range covers. -/
def keep (ranges : List DisabledRange) (warnings : List Warning) : List Warning :=
  warnings.filter fun w => !ranges.any fun r => r.covers w

/-- For each range, whether it covers some warning. -/
def used (ranges : List DisabledRange) (warnings : List Warning) : List Bool :=
  ranges.map fun r => warnings.any fun w => r.covers w

end DisabledRange

end StyleAudit
