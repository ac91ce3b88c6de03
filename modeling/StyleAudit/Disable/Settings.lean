import StyleAudit.Config.Basic
import StyleAudit.Regex.Match
import StyleAudit.Regex.Meaning

/-!
The options of the reports on directive comments, and their validation.
-/

namespace StyleAudit

/-- The three reports on directive comments. -/
inductive DisableReport where
  | needless
  | invalidScope
  | descriptionless
deriving DecidableEq, Repr

namespace DisableReport

/-- The rule name of the report's warnings. -/
def ruleName : DisableReport → String
  | .needless => "--report-needless-disables"
  | .invalidScope => "--report-invalid-scope-disables"
  | .descriptionless => "--report-descriptionless-disables"

def option? (c : Config) : DisableReport → Option Json
  | .needless => c.reportNeedlessDisables
  | .invalidScope => c.reportInvalidScopeDisables
  | .descriptionless => c.reportDescriptionlessDisables

end DisableReport

/-- An exception: a rule name, or an expression for rule names. -/
inductive Exception where
  | name (exact : String)
  | regex (source : String) (expression : Regex)

namespace Exception

/-- The text between two slashes, if it is not empty. -/
def betweenSlashes? (text : String) : Option String :=
  match text.toList with
  | '/' :: rest =>
    match rest.reverse with
    | '/' :: inner => if inner.isEmpty then none else some (String.ofList inner.reverse)
    | _ => none
  | _ => none

/-- Reads an exception: an expression between slashes, or else a name. -/
def parse? (text : String) : Option Exception :=
  match betweenSlashes? text with
  | some pattern => (Regex.parse? pattern).map (.regex pattern)
  | none => some (.name text)

def isMatch : Exception → String → Bool
  | .name exact, rule => exact == rule
  | .regex _ r, rule => r.isMatch rule

end Exception

/-- The validated options of one report. -/
structure DisableSettings where
  enabled : Bool
  except : List Exception
  severity : Severity

namespace DisableSettings

/-- Whether directives about a rule are reported; an exception turns the answer round. -/
def appliesTo (s : DisableSettings) (rule : String) : Bool :=
  s.enabled != s.except.any fun e => e.isMatch rule

def invalidValue (value : Json) (field : String) : String :=
  "Invalid option value \"" ++ value.display ++ "\" for rule \"" ++ field ++ "\""

def invalidExcept (value : Json) (field : String) : String :=
  "Invalid value \"" ++ value.display ++ "\" for option \"except\" of rule \"" ++ field ++ "\""

def invalidSeverity (value : Json) (field : String) : String :=
  "Invalid value \"" ++ value.display ++ "\" for option \"severity\" of rule \"" ++ field ++ "\""

def invalidName (name field : String) : String :=
  "Invalid option name \"" ++ name ++ "\" for rule \"" ++ field ++ "\""

/-- Options that every report takes and none uses. -/
def ignoredKeys : List String := ["message", "url", "reportDisables", "disableFix"]

/-- What the options of a report say, and what is wrong with them. -/
structure Options where
  except : List Exception
  severity : Option Severity
  faults : List String

/-- Reads exceptions in a row. -/
def readExceptions (field : String) (o : Options) : List Json → Options
  | [] => o
  | item :: items =>
    match item.text?.bind Exception.parse? with
    | some e => readExceptions field { o with except := o.except ++ [e] } items
    | none =>
      readExceptions field { o with faults := o.faults ++ [invalidExcept item field] } items

/-- Reads the options in their order. -/
def readOptions (field : String) (o : Options) : Table Json → Options
  | [] => o
  | (key, value) :: rest =>
    let o :=
      if key = "except" then
        readExceptions field o (match value with
          | .array items => items
          | single => [single])
      else if key = "severity" then
        match value.text?.bind Severity.ofName? with
        | some severity => { o with severity := some severity }
        | none => { o with faults := o.faults ++ [invalidSeverity value field] }
      else if ignoredKeys.contains key then o
      else { o with faults := o.faults ++ [invalidName key field] }
    readOptions field o rest

/-- The flag and the options of a raw value, or what is wrong with it. -/
def split (field : String) : Json → Except String (Bool × Table Json)
  | .null => .ok (false, [])
  | .bool enabled => .ok (enabled, [])
  | .array items =>
    match items with
    | [.bool enabled] => .ok (enabled, [])
    | [.bool enabled, .object options] => .ok (enabled, options)
    | .bool _ :: _ => .error (invalidValue (.array items) field)
    | first :: _ => .error (invalidValue first field)
    | [] => .error (invalidValue (.array []) field)
  | other => .error (invalidValue other field)

/--
The settings of a report under a configuration, with what is wrong with the option. There are none
when the option is unset, off without exceptions, or faulty.
-/
def validate (c : Config) (report : DisableReport) : Option DisableSettings × List String :=
  let field := report.ruleName
  match report.option? c with
  | none => (none, [])
  | some raw =>
    match split field raw with
    | .error fault => (none, [fault])
    | .ok (enabled, options) =>
      let o := readOptions field ⟨[], none, []⟩ options
      if !o.faults.isEmpty then (none, o.faults)
      else if !enabled && o.except.isEmpty then (none, [])
      else (some ⟨enabled, o.except, (o.severity <|> c.defaultSeverity).getD .error⟩, [])

end DisableSettings

end StyleAudit
