import StyleAudit.Config.Decode
import StyleAudit.Registry.Basic
import StyleAudit.Rule.Stock

/-!
Registries described in JSON.

A description names stock rules with their parameters, plugins made of such rules, shared
configurations and parsers. What it leaves out or gets wrong falls back to a default.
-/

namespace StyleAudit

def RuleMeta.describe (v : Option Json) : RuleMeta := (v.bind RuleMeta.ofJson?).getD {}

def Rule.describe (v : Json) : Rule :=
  Rule.ofName ((v.textMember? "check").getD "") (RuleMeta.describe (v.field? "meta"))
    (v.textMember? "value") (v.textMember? "fixTo")

def Plugin.describe (v : Json) : Plugin where
  name := (v.textMember? "name").getD ""
  legacy := v.flagMember "legacy"
  rules := (v.itemsMember "rules").map fun r => ((r.textMember? "name").getD "", Rule.describe r)

/-- A parser is named like its key unless it has a name of its own. -/
def Parser.describe (key : String) (v : Json) : Parser :=
  Parser.ofMode ((v.textMember? "mode").getD "") ((v.textMember? "name").getD key)
    ((v.itemsMember "extensions").filterMap Json.text?)

namespace Registry

/-- Adds a shared configuration, if it is one. -/
def describeConfig (r : Registry) (name : String) (v : Json) : Registry :=
  match Config.ofJson v with
  | .ok c => r.addConfig name c
  | .error _ => r

/-- Adds what a description holds; what has a name that is there already replaces it. -/
def describe (r : Registry) (v : Json) : Registry :=
  let r := (v.membersOf "rules").foldl
    (fun r (name, rule) => r.addRule name (Rule.describe rule)) r
  let r := (v.membersOf "plugins").foldl
    (fun r (name, plugin) => r.addPlugin name (Plugin.describe plugin)) r
  let r := (v.membersOf "configs").foldl
    (fun r (name, config) => r.describeConfig name config) r
  (v.membersOf "parsers").foldl
    (fun r (name, parser) => r.addParser name (Parser.describe name parser)) r

end Registry

end StyleAudit
