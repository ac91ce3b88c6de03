import StyleAudit.Options.Basic
import StyleAudit.Registry.Description

/-!
The options of a run, read from JSON.

A member that is absent, or is not of its type, keeps its default. Only a configuration and the
name of a cache strategy can be wrong.
-/

namespace StyleAudit.Options

def flag? (v : Json) (key : String) : Option Bool := (v.field? key).bind Json.bool?

def texts (v : Json) (key : String) : List String := (v.itemsMember key).filterMap Json.text?

/-- A value that counts as absent when it is null. -/
def value? (v : Json) (key : String) : Option Json :=
  match v.field? key with
  | some .null => none
  | w => w

/-- The configuration, with the plugins that are attached to it. -/
def readConfig (v : Json) : Except LintError (Option Config) := do
  match value? v "config" with
  | none => return none
  | some w =>
    let c ← Config.ofJson w
    let attached := (v.itemsMember "attach").zipIdx.map fun (p, i) =>
      PluginEntry.attached i (Plugin.describe p)
    return some { c with plugins := c.plugins ++ attached }

def readStrategy (v : Json) : Except LintError CacheStrategy :=
  match v.textMember? "cacheStrategy" with
  | none => .ok .metadata
  | some name =>
    match CacheStrategy.ofName name with
    | .ok s => .ok s
    | .error e => .error (.cache e)

/-- The number of values of an unsigned word of 64 bits. -/
def word64 : Nat := 0x10000000000000000

def ofJson (v : Json) : Except LintError Options := do
  let text := fun key => v.textMember? key
  let flag := fun key => v.flagMember key
  return {
    files := ((v.field? "files").bind Json.items?).map fun items => items.filterMap Json.text?
    code := text "code"
    codeFilename := text "codeFilename"
    config := ← readConfig v
    configFile := text "configFile"
    configBasedir := text "configBasedir"
    cwd := text "cwd"
    globCwd := text "globCwd"
    cache := flag? v "cache"
    cacheLocation := text "cacheLocation"
    cacheStrategy := ← readStrategy v
    fix := flag? v "fix"
    maxWarnings := (v.field? "maxWarnings").bind (Json.natBelow? word64)
    formatter := (text "formatter").map .named
    allowEmptyInput := flag? v "allowEmptyInput"
    concurrency := (v.field? "concurrency").bind (Json.natBelow? word64)
    keepExcluded := flag "disableDefaultIgnores"
    ignoreFiles := texts v "ignorePath"
    ignorePatterns := texts v "ignorePattern"
    ignoreDisables := flag "ignoreDisables"
    quiet := flag "quiet"
    quietDeprecations := flag "quietDeprecationWarnings"
    reportNeedlessDisables := value? v "reportNeedlessDisables"
    reportInvalidScopeDisables := value? v "reportInvalidScopeDisables"
    reportDescriptionlessDisables := value? v "reportDescriptionlessDisables"
    customSyntax := text "customSyntax" }

end StyleAudit.Options
