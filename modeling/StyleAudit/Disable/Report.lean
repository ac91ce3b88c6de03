import StyleAudit.Disable.Settings
import StyleAudit.Report.Result

/-!
Reports on directive comments: those that suppress nothing, name rules that are off, or lack a
description.
-/

namespace StyleAudit.DisableReport

/-- What a report says about a range. -/
def text (report : DisableReport) (range : DisabledRange) : String :=
  match report with
  | .needless => "Needless disable for \"" ++ range.ruleName ++ "\""
  | .invalidScope => "Rule \"" ++ range.ruleName ++ "\" isn't enabled"
  | .descriptionless => "Disable for \"" ++ range.ruleName ++ "\" is missing a description"

/-- Whether a report objects to a range, given whether the range is used. -/
def objects (report : DisableReport) (isEnabled : String → Bool) (range : DisabledRange)
    (used : Bool) : Bool :=
  match report with
  | .needless => !used
  | .invalidScope =>
    match range.rule with
    | some rule => !isEnabled rule
    | none => false
  | .descriptionless => range.description.isNone

def warning (report : DisableReport) (settings : DisableSettings) (range : DisabledRange) :
    Warning :=
  { Warning.ofPosition report.ruleName (report.text range) range.comment.line
      range.comment.column with severity := settings.severity }

/-- The warnings of one report. -/
def warnings (report : DisableReport) (settings : DisableSettings)
    (isEnabled : String → Bool) (ranges : List (DisabledRange × Bool)) : List Warning :=
  (ranges.filter fun (range, used) =>
    report.objects isEnabled range used && settings.appliesTo range.ruleName).map
      fun (range, _) => report.warning settings range

/-- Adds one report to a result, or what is wrong with its option. -/
def addTo (report : DisableReport) (c : Config) (isEnabled : String → Bool)
    (ranges : List (DisabledRange × Bool)) (r : LintResult) : LintResult :=
  match DisableSettings.validate c report with
  | (some settings, faults) =>
    (r.invalidOptionsAll faults).pushAll (report.warnings settings isEnabled ranges)
  | (none, faults) => r.invalidOptionsAll faults

/-- Adds all reports; needless directives are not looked for where directives are ignored. -/
def addAll (c : Config) (isEnabled : String → Bool) (ranges : List DisabledRange)
    (used : List Bool) (r : LintResult) : LintResult :=
  let pairs := ranges.zip used
  let r := if c.ignoreDisables.getD false then r else addTo .needless c isEnabled pairs r
  let r := addTo .invalidScope c isEnabled pairs r
  addTo .descriptionless c isEnabled pairs r

end StyleAudit.DisableReport
