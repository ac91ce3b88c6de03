import StyleAudit.Json.Printer
import StyleAudit.Path
import StyleAudit.Report.Aggregate

/-!
Writing the report of a run.

The compact and the line format give one line for each warning in the order of the results. The
grouped format sorts the warnings of each input by position. The JSON format gives the results as
they are.
-/

namespace StyleAudit

inductive Formatter where
  | json
  | compact
  | grouped
  | lines
  /-- A report by the caller's own function. -/
  | custom (write : List LintResult → Summary → String)

/-- How a formatter is asked for: by name or as a function. -/
inductive FormatterChoice where
  | named (name : String)
  | function (write : List LintResult → Summary → String)

namespace Formatter

def ofName (name : String) : Except LintError Formatter :=
  if name = "json" then .ok .json
  else if name = "compact" then .ok .compact
  else if name = "string" then .ok .grouped
  else if name = "unix" then .ok .lines
  else .error (.invalidFormatter name)

/-- The formatter of a run; the JSON format is used when none is chosen. -/
def choose : Option FormatterChoice → Except LintError Formatter
  | none => .ok .json
  | some (.named name) => ofName name
  | some (.function write) => .ok (.custom write)

def shownSource (r : LintResult) : String :=
  r.source.getD unnamedSource

/-- The source from the working directory, if it lies below it. -/
def shownSourceFrom (r : LintResult) (cwd : String) : String :=
  match r.source.bind fun path => Path.stripPrefix? path cwd with
  | some relative => relative
  | none => shownSource r

def compactLine (source : String) (w : Warning) : String :=
  source ++ ": line " ++ toString w.line ++ ", col " ++ toString w.column ++ ", " ++
    w.severity.name ++ " - " ++ w.text

def writeCompact (results : List LintResult) : String :=
  let entries := results.flatMap fun r => r.warnings.map (compactLine (shownSource r))
  let text := String.intercalate "\n" entries
  if text = "" then "" else text ++ "\n"

def unixLine (source : String) (w : Warning) : String :=
  source ++ ":" ++ toString w.line ++ ":" ++ toString w.column ++ ": " ++ w.text ++ " [" ++
    w.severity.name ++ "]\n"

def plural (count : Nat) (word : String) : String :=
  if count = 1 then word else word ++ "s"

/-- Adds the line of a warning to the lines before it, and counts it. -/
def addUnixLine (source : String) (written : String × Nat) (w : Warning) : String × Nat :=
  (written.1 ++ unixLine source w, written.2 + 1)

def writeLines (results : List LintResult) : String :=
  let (text, total) := results.foldl
    (fun written r => r.warnings.foldl (addUnixLine (shownSource r)) written) ("", 0)
  if total = 0 then text
  else text ++ "\n" ++ toString total ++ " " ++ plural total "problem" ++ "\n"

/-- A text without a tail, if it ends with it. -/
def dropTail (tail text : String) : String :=
  let cs := text.toList
  let ts := tail.toList
  if ts.isSuffixOf cs then String.ofList (cs.take (cs.length - ts.length)) else text

def symbol : Severity → String
  | .error => "✖"
  | .warning => "⚠"

def groupedLine (w : Warning) : String :=
  "  " ++ toString w.line ++ ":" ++ toString w.column ++ "  " ++ symbol w.severity ++ "  " ++
    dropTail (" (" ++ w.rule ++ ")") w.text ++ "  " ++ w.rule ++ "\n"

/-- Whether a warning does not come after another. -/
def notAfter (a b : Warning) : Bool :=
  a.line < b.line || (a.line == b.line && a.column ≤ b.column)

/-- The members of a list, each once, in the order of their first occurrence. -/
def distinct : List String → List String → List String
  | _, [] => []
  | seen, x :: xs =>
    if seen.contains x then distinct seen xs else x :: distinct (x :: seen) xs

/-- A list of notes under a heading, or nothing if there are none. -/
def notesUnder (heading : String) (notes : List String) : String :=
  if notes.isEmpty then ""
  else "\n" ++ heading ++ "\n" ++ String.join ((distinct [] notes).map fun n => " - " ++ n ++ "\n")

/-- A grouped report while it is written, with the warnings in it counted by severity. -/
structure Grouped where
  text : String
  errors : Nat
  warnings : Nat

/-- Adds the line of a warning, and counts it. -/
def Grouped.addLine (g : Grouped) (w : Warning) : Grouped :=
  let g := { g with text := g.text ++ groupedLine w }
  match w.severity with
  | .error => { g with errors := g.errors + 1 }
  | .warning => { g with warnings := g.warnings + 1 }

/-- The line above the warnings of an input. -/
def groupedHeader (cwd : String) (r : LintResult) : String :=
  "\n" ++ shownSourceFrom r cwd ++ "\n"

/-- Adds the warnings of an input under its header, by position, or nothing if there are none. -/
def Grouped.addResult (cwd : String) (g : Grouped) (r : LintResult) : Grouped :=
  if r.warnings.isEmpty then g
  else
    (r.warnings.mergeSort notAfter).foldl addLine { g with text := g.text ++ groupedHeader cwd r }

def groupedSummary (errors warnings : Nat) : String :=
  let total := errors + warnings
  if total = 0 then ""
  else
    "\n✖ " ++ toString total ++ " " ++ plural total "problem" ++ " (" ++
      toString errors ++ " " ++ plural errors "error" ++ ", " ++
      toString warnings ++ " " ++ plural warnings "warning" ++ ")\n"

def writeGrouped (cwd : String) (results : List LintResult) : String :=
  let notes :=
    notesUnder "Deprecation warnings:" (results.flatMap fun r => r.deprecations.map (·.text)) ++
    notesUnder "Invalid Option:" (results.flatMap LintResult.invalidOptions)
  let written := results.foldl (Grouped.addResult cwd) ⟨notes, 0, 0⟩
  written.text ++ groupedSummary written.errors written.warnings

def writeJson (results : List LintResult) : String :=
  (Json.array (results.map LintResult.toJson)).compact

def write (f : Formatter) (results : List LintResult) (summary : Summary) : String :=
  match f with
  | .json => writeJson results
  | .compact => writeCompact results
  | .grouped => writeGrouped summary.cwd results
  | .lines => writeLines results
  | .custom write => write results summary

end Formatter

/-- Adds up the results of a run and writes its report. -/
def Aggregate.ofResults (results : List LintResult) (maxWarnings : Option Nat)
    (formatter : Formatter) (cwd : String) : Aggregate :=
  let summary := Summary.ofResults results maxWarnings cwd
  { summary with results := results, report := formatter.write results summary, code := none }

end StyleAudit
