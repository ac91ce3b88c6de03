import StyleAudit.Disable.Range
import StyleAudit.Rule.Basic

/-!
The result of linting one input.
-/

namespace StyleAudit

/-- A rule in use that is going out of use. -/
structure Deprecation where
  text : String
  reference : Option String
deriving DecidableEq, Repr

structure LintResult where
  /-- The path of the input; code without a name has none. -/
  source : Option String := none
  deprecations : List Deprecation := []
  invalidOptions : List String := []
  parseErrors : List Warning := []
  /-- Whether there is a warning that is an error, or an invalid option. -/
  errored : Bool := false
  warnings : List Warning := []
  ignored : Bool := false
  /-- Whether the input was skipped because nothing changed since a clean run. -/
  fromCache : Bool := false
  severities : Table Severity := []
  messages : Table String := []
  metadata : Table RuleMeta := []
  ranges : List DisabledRange := []
deriving DecidableEq, Repr, Inhabited

namespace LintResult

/-- The rule name of results that stand for an error of an input. -/
def inputErrorRule : String := "InputError"

def ofSource (source : Option String) : LintResult := { source := source }

/-- An input that is to be left out. -/
def skipped (source : Option String) : LintResult := { source := source, ignored := true }

/-- An input whose clean result still holds. -/
def cached (source : Option String) : LintResult :=
  { source := source, ignored := true, fromCache := true }

/-- A result that holds nothing but an error. -/
def single (source : Option String) (warning : Warning) : LintResult :=
  { source := source, errored := true, warnings := [warning] }

def ofSyntaxError (source : Option String) (e : SyntaxError) : LintResult :=
  single (source <|> e.file) (Warning.ofPosition SyntaxError.ruleName
    (e.reason ++ " (" ++ SyntaxError.ruleName ++ ")") e.line e.column)

def ofError (source : Option String) (e : LintError) : LintResult :=
  single source
    (Warning.ofPosition inputErrorRule (e.message ++ " (" ++ inputErrorRule ++ ")") 1 1)

/-- Records an invalid option. -/
def invalidOption (r : LintResult) (text : String) : LintResult :=
  { r with invalidOptions := r.invalidOptions ++ [text], errored := true }

/-- Adds a warning; an error marks the result. -/
def push (r : LintResult) (w : Warning) : LintResult :=
  { r with warnings := r.warnings ++ [w], errored := r.errored || w.severity == .error }

def invalidOptionsAll (r : LintResult) (texts : List String) : LintResult :=
  texts.foldl invalidOption r

def pushAll (r : LintResult) (ws : List Warning) : LintResult :=
  ws.foldl push r

def count (r : LintResult) (severity : Severity) : Nat :=
  (r.warnings.filter fun w => w.severity == severity).length

def errorCount (r : LintResult) : Nat := r.count .error

def warningCount (r : LintResult) : Nat := r.count .warning

def hasErrors (r : LintResult) : Bool := r.warnings.any fun w => w.severity == .error

def hasWarnings (r : LintResult) : Bool := r.warnings.any fun w => w.severity == .warning

def toJson (r : LintResult) : Json :=
  let deprecation (d : Deprecation) : Json :=
    .object (("text", .string d.text) :: (match d.reference with
      | some reference => [("reference", .string reference)]
      | none => []))
  .object ([
    ("source", (r.source.map Json.string).getD .null),
    ("deprecations", .array (r.deprecations.map deprecation)),
    ("invalidOptionWarnings",
      .array (r.invalidOptions.map fun text => .object [("text", .string text)])),
    ("parseErrors", .array (r.parseErrors.map Warning.toJson)),
    ("errored", .bool r.errored),
    ("warnings", .array (r.warnings.map Warning.toJson))] ++
    (if r.ignored then [("ignored", .bool true)] else []))

end LintResult

end StyleAudit
