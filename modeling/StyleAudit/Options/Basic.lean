import StyleAudit.Cache.Entry
import StyleAudit.Config.Basic
import StyleAudit.Report.Format

/-!
The options of a run.
-/

namespace StyleAudit

/-- What a run is asked to do. It takes either files or code. -/
structure Options where
  /-- Paths and globs of inputs. -/
  files : Option (List String) := none
  /-- A source to lint in place of files. -/
  code : Option String := none
  /-- The path under which the code is linted. -/
  codeFilename : Option String := none
  /-- A configuration in place of configuration files. -/
  config : Option Config := none
  /-- The configuration file, in place of a search. -/
  configFile : Option String := none
  /-- The directory that the paths in the configuration are taken from. -/
  configBasedir : Option String := none
  cwd : Option String := none
  /-- The directory that globs are taken from, if not the working directory. -/
  globCwd : Option String := none
  cache : Option Bool := none
  cacheLocation : Option String := none
  cacheStrategy : CacheStrategy := .metadata
  fix : Option Bool := none
  maxWarnings : Option Nat := none
  formatter : Option FormatterChoice := none
  allowEmptyInput : Option Bool := none
  /-- How many files are linted at the same time at most; without a cap, or with a cap of zero, all
  of them are. -/
  concurrency : Option Nat := none
  /-- Whether directories are searched that are left out by default. -/
  keepExcluded : Bool := false
  ignoreFiles : List String := []
  ignorePatterns : List String := []
  ignoreDisables : Bool := false
  quiet : Bool := false
  /-- Whether plugins in an old form go unnoticed. -/
  quietDeprecations : Bool := false
  reportNeedlessDisables : Option Json := none
  reportInvalidScopeDisables : Option Json := none
  reportDescriptionlessDisables : Option Json := none
  customSyntax : Option String := none

namespace Options

/-- A value that counts only if it is truthy, over one that was there before. -/
def truthyOr (option before : Option Json) : Option Json :=
  match option with
  | some value => if value.isTruthy then some value else before
  | none => before

/-- Lays the options that say something over a configuration. -/
def applyTo (o : Options) (c : Config) : Config :=
  { c with
    ignoreDisables := if o.ignoreDisables then some true else c.ignoreDisables
    quiet := if o.quiet then some true else c.quiet
    reportNeedlessDisables := truthyOr o.reportNeedlessDisables c.reportNeedlessDisables
    reportInvalidScopeDisables :=
      truthyOr o.reportInvalidScopeDisables c.reportInvalidScopeDisables
    reportDescriptionlessDisables :=
      truthyOr o.reportDescriptionlessDisables c.reportDescriptionlessDisables
    customSyntax := match o.customSyntax with
      | some name => if name = "" then c.customSyntax else some name
      | none => c.customSyntax
    fix := if o.fix = some true then some true else c.fix }

end Options

end StyleAudit
