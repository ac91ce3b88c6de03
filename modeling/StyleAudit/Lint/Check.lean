import StyleAudit.Config.Resolved
import StyleAudit.Disable.Report

/-!
Running the rules of a configuration on a sheet.

Rules run in the order of the configuration, each on the sheet that the one before it left. The
disabled ranges are those of the sheet before any rule ran.
-/

namespace StyleAudit

/-- What has come out of the rules so far. -/
structure RuleRun where
  sheet : Sheet
  /-- The findings, before directive comments are heeded. -/
  warnings : List Warning
  /-- The rules that can fix and were asked to. -/
  fixing : List String
  result : LintResult

namespace RuleRun

def start (sheet : Sheet) (source : Option String) : RuleRun :=
  ⟨sheet, [], [], LintResult.ofSource source⟩

def unknownRule (name : String) : Warning :=
  Warning.ofPosition name ("Unknown rule " ++ name ++ ".") 1 1

def deprecation (name : String) (info : RuleMeta) : List Deprecation :=
  if info.deprecated then [⟨"The \"" ++ name ++ "\" rule is deprecated.", info.url⟩] else []

/-- Whether a rule is to fix: the configuration says so and its options do not object. -/
def fixes (r : EffectiveConfig) (settings : RuleSettings) : Bool :=
  r.fix && !((settings.secondary.find? "disableFix").map Json.isTruthy).getD false

def context (r : EffectiveConfig) (file : Option String) (name : String)
    (settings : RuleSettings) : RuleContext where
  name := name
  primary := settings.primary
  secondary := settings.secondary
  severity := settings.severity
  fix := fixes r settings
  file := file

/-- Records a rule that ran, with what it found. -/
def record (result : LintResult) (name : String) (settings : RuleSettings) (info : RuleMeta)
    (invalidOptions : List String) : LintResult :=
  let result := { result with deprecations := result.deprecations ++ deprecation name info }
  let result := result.invalidOptionsAll invalidOptions
  { result with
    severities := result.severities.insertSorted name settings.severity
    messages := match (settings.secondary.find? "message").bind Json.text? with
      | some message => result.messages.insertSorted name message
      | none => result.messages
    metadata := result.metadata.insertSorted name info }

/-- Runs one rule. -/
def runRule (r : EffectiveConfig) (file : Option String) (run : RuleRun) (name : String)
    (settings : RuleSettings) (rule : Rule) : RuleRun :=
  let (sheet, found) := rule.check (context r file name settings) run.sheet
  { sheet := sheet
    warnings := run.warnings ++ found.warnings
    fixing := if fixes r settings && rule.info.fixable then run.fixing ++ [name] else run.fixing
    result := record run.result name settings rule.info found.invalidOptions }

/-- Runs one rule of a configuration, unless only errors are wanted and it gives none. -/
def step (r : EffectiveConfig) (registry : Registry) (file : Option String) (run : RuleRun)
    (entry : String × RuleSettings) : RuleRun :=
  let (name, settings) := entry
  if r.quiet && settings.severity != .error then run
  else
    match r.rule? registry name with
    | none => { run with warnings := run.warnings ++ [unknownRule name] }
    | some rule => runRule r file run name settings rule

/-- Runs all rules of a configuration. -/
def runAll (r : EffectiveConfig) (registry : Registry) (file : Option String) (sheet : Sheet) :
    RuleRun :=
  r.rules.foldl (step r registry file) (start sheet file)

end RuleRun

/-- A sheet that has been checked. -/
structure CheckedSheet where
  result : LintResult
  sheet : Sheet
  /-- The text to write back, if the configuration fixes and no directive comment forbids it. -/
  output : Option String

namespace CheckedSheet

/-- Whether a range keeps fixes from being written: it is for all rules or for one that fixed. -/
def forbidsWriting (fixing : List String) (range : DisabledRange) : Bool :=
  match range.rule with
  | some rule => fixing.contains rule
  | none => true

/-- Checks a sheet under a configuration. -/
def make (r : EffectiveConfig) (registry : Registry) (print : Sheet → String)
    (file : Option String) (sheet : Sheet) : CheckedSheet :=
  let ranges := DisabledRange.ofSheet sheet
  let run := RuleRun.runAll r registry file sheet
  let kept := if r.ignoreDisables then run.warnings else DisabledRange.keep ranges run.warnings
  let used := if r.ignoreDisables then ranges.map fun _ => false
    else DisabledRange.used ranges run.warnings
  let result := DisableReport.addAll r.config (fun rule => r.rules.contains rule) ranges used
    (run.result.pushAll kept)
  { result := { result with ranges := ranges }
    sheet := run.sheet
    output := if r.fix && !ranges.any (forbidsWriting run.fixing) then some (print run.sheet)
      else none }

end CheckedSheet

end StyleAudit
