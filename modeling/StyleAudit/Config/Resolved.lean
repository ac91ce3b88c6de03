import StyleAudit.Config.Extends
import StyleAudit.Config.RuleSettings
import StyleAudit.Options.Basic

/-!
The configuration that is in force for one input.

It holds the merged configuration, the rules that its plugins bring and the settings of every rule
that is on.
-/

namespace StyleAudit

structure EffectiveConfig where
  /-- The configuration without bases and, for an input, without overrides. -/
  config : Config
  /-- The file that the configuration began with. -/
  file : Option String
  /-- The rules of the plugins. -/
  functions : Table Rule
  /-- The settings of the rules that are on, in their order. -/
  rules : Table RuleSettings
  hash : String

namespace EffectiveConfig

def fix (r : EffectiveConfig) : Bool := r.config.fix.getD false

def quiet (r : EffectiveConfig) : Bool := r.config.quiet.getD false

def ignoreDisables (r : EffectiveConfig) : Bool := r.config.ignoreDisables.getD false

/-- A rule by name; those of plugins come first. -/
def rule? (r : EffectiveConfig) (registry : Registry) (name : String) : Option Rule :=
  r.functions.find? name <|> registry.rules.find? name

end EffectiveConfig

/-- What configurations are worked out with. -/
structure ConfigContext where
  registry : Registry
  memo : ConfigMemo
  files : FileSystem
  options : Options
  cwd : String

namespace ConfigContext

def sources (x : ConfigContext) : BaseSources :=
  BaseSources.ofFiles x.registry x.memo x.files x.cwd

/-- What is remembered after some files were read. -/
def remembered (x : ConfigContext) (t : Trail) : ConfigMemo :=
  x.memo.rememberAll x.files t.reads

/-- Works out a configuration in a directory, with the options of the run if it is the first. -/
def extend (x : ConfigContext) (c : Config) (dir : String) (withOptions : Bool)
    (rootDir : String) (input : Option String) (chain : List String) :
    Except LintError Config × Trail :=
  let scope : Config.Scope := ⟨x.sources, rootDir, input⟩
  Config.extendFrom scope dir (if withOptions then x.options.applyTo c else c) chain

/-- The directory that the paths in a configuration are taken from. -/
def baseDir (x : ConfigContext) (l : SourcedConfig) : String :=
  match x.options.configBasedir with
  | some dir => Path.absolutize dir x.cwd
  | none => l.dir?.getD x.cwd

/-- The merged configuration for an input. -/
def augment (x : ConfigContext) (l : SourcedConfig) (input : Option String) :
    Except LintError Config × Trail :=
  let dir := x.baseDir l
  x.extend l.config dir true dir input (l.file.map Path.withSlashes).toList

/-- Adds the plugins and the settings of the rules to a merged configuration. -/
def complete (x : ConfigContext) (file : Option String) (c : Config) :
    List String × Except LintError EffectiveConfig :=
  match Plugin.load x.registry.plugins x.options.quietDeprecations [] c.plugins with
  | (notices, .error e) => (notices, .error (.plugin e))
  | (notices, .ok functions) =>
    if c.hasRules then
      let info (name : String) : Option RuleMeta :=
        (functions.find? name <|> x.registry.rules.find? name).map Rule.info
      let (rules, more) := c.ruleSettings info
      (notices ++ more, .ok ⟨c, file, functions, rules, c.hash⟩)
    else (notices, .error (.config .noRules))

/-- The configuration in force for an input, with the notices given on the way. -/
def resolve (x : ConfigContext) (l : SourcedConfig) (input : Option String) :
    List String × Except LintError EffectiveConfig × Trail :=
  match x.augment l input with
  | (.error e, t) => ([], .error e, t)
  | (.ok c, t) =>
    let (notices, r) := x.complete l.file c
    (notices, r, t)

end ConfigContext

end StyleAudit
