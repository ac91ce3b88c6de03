import StyleAudit.Report.Result

/-!
What a whole run comes to: counts, whether it failed, and what is known about its rules.
-/

namespace StyleAudit

/-- A budget of warnings that was not kept. -/
structure BudgetExceeded where
  allowed : Nat
  found : Nat
deriving DecidableEq, Repr

/-- What is known of a run before its report is written. -/
structure Summary where
  cwd : String
  errored : Bool
  exceeded : Option BudgetExceeded
  metadata : Table RuleMeta
  errorCount : Nat
  warningCount : Nat
deriving DecidableEq, Repr

/-- The result of a whole run. -/
structure Aggregate extends Summary where
  results : List LintResult
  report : String
  /-- The output for a code input that was fixed. -/
  code : Option String
deriving DecidableEq, Repr

namespace Summary

/-- What the results come to together. -/
def total (count : LintResult → Nat) : List LintResult → Nat
  | [] => 0
  | r :: rs => count r + total count rs

/-- What is known of the rules of all results; later results win. -/
def collectMetadata (results : List LintResult) : Table RuleMeta :=
  results.foldl (fun all r =>
    r.metadata.foldl (fun all (name, info) => all.insertSorted name info) all) []

def ofResults (results : List LintResult) (maxWarnings : Option Nat) (cwd : String) : Summary :=
  let warningCount := total LintResult.warningCount results
  let exceeded := match maxWarnings with
    | some allowed =>
      if allowed < warningCount then some ⟨allowed, warningCount⟩ else none
    | none => none
  let failed := results.any fun r => r.errored || !r.parseErrors.isEmpty || r.hasErrors
  { cwd := cwd
    errored := failed || exceeded.isSome
    exceeded := exceeded
    metadata := collectMetadata results
    errorCount := total LintResult.errorCount results
    warningCount := warningCount }

end Summary

def Aggregate.toJson (a : Aggregate) : Json :=
  .object ([
    ("cwd", .string a.cwd),
    ("results", .array (a.results.map LintResult.toJson)),
    ("errored", .bool a.errored),
    ("report", .string a.report)] ++
    (match a.code with
      | some code => [("code", .string code)]
      | none => []) ++
    (match a.exceeded with
      | some e => [("maxWarningsExceeded", .object [
          ("maxWarnings", Json.nat e.allowed), ("foundWarnings", Json.nat e.found)])]
      | none => []) ++ [
    ("ruleMetadata", .object (a.metadata.map fun (name, info) => (name, info.toJson))),
    ("errorCount", Json.nat a.errorCount),
    ("warningCount", Json.nat a.warningCount)])

end StyleAudit
