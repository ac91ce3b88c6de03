import StyleAudit.Json.Record
import StyleAudit.Sheet.Position

/-!
Severities and warnings, the findings that a reader of a report sees.
-/

namespace StyleAudit

inductive Severity where
  | error
  | warning
deriving DecidableEq, Repr, Inhabited

namespace Severity

def name : Severity → String
  | .error => "error"
  | .warning => "warning"

def ofName? (s : String) : Option Severity :=
  if s = "error" then some .error
  else if s = "warning" then some .warning
  else none

theorem ofName?_name (s : Severity) : ofName? s.name = some s := by
  cases s <;> decide

def toJson (s : Severity) : Json := .string s.name

/-- A severity by its name, or as an object with that name as its only key. -/
def ofJson? : Json → Option Severity
  | .string s => ofName? s
  | .object [(s, .null)] => ofName? s
  | _ => none

/-- A severity in the settings of an override, where the key may also hold an empty object. -/
def ofOverrideJson? : Json → Option Severity
  | .object [(s, .object [])] => ofName? s
  | v => ofJson? v

end Severity

/-- One finding about one input. -/
structure Warning where
  rule : String
  text : String
  severity : Severity
  line : Nat
  column : Nat
  endLine : Option Nat
  endColumn : Option Nat
deriving DecidableEq, Repr, Inhabited

namespace Warning

/-- An error at a position, without an end. -/
def ofPosition (rule text : String) (line column : Nat) : Warning :=
  ⟨rule, text, .error, line, column, none, none⟩

/-- An error over a location. -/
def ofLocation (rule text : String) (l : Location) : Warning :=
  ⟨rule, text, .error, l.start.line, l.start.column, some l.stop.line, some l.stop.column⟩

def position (w : Warning) : Position := ⟨w.line, w.column⟩

/-- Ends that are absent are left out. -/
def toJson (w : Warning) : Json :=
  let optional (key : String) (n : Option Nat) : List (String × Json) :=
    match n with
    | some n => [(key, Json.nat n)]
    | none => []
  .object ([("rule", .string w.rule), ("text", .string w.text), ("severity", w.severity.toJson),
    ("line", Json.nat w.line), ("column", Json.nat w.column)] ++
    optional "endLine" w.endLine ++ optional "endColumn" w.endColumn)

def ofJson? (v : Json) : Option Warning := do
  let names := ["rule", "text", "severity", "line", "column", "endLine", "endColumn"]
  guard (Json.isOpenRecord names v)
  let field (key : String) : Option Json := Json.recordField? names key v
  let severity ← match field "severity" with
    | none => some Severity.error
    | some s => Severity.ofJson? s
  let number (v : Json) : Option Nat := v.natBelow? Json.word32
  return {
    rule := ← (← field "rule").text?
    text := ← (← field "text").text?
    severity := severity
    line := ← number (← field "line")
    column := ← number (← field "column")
    endLine := ← Json.optional? number (field "endLine")
    endColumn := ← Json.optional? number (field "endColumn") }

end Warning

end StyleAudit
