import StyleAudit.Registry.Basic
import StyleAudit.Rule.Stock

/-!
The registry of stock rules under their usual names, with a few plugins, shared configurations
and parsers.
-/

namespace StyleAudit.Registry

/-- A configuration that turns rules on and builds on others. -/
def stockConfig (bases rules : List String) : Config :=
  { bases := bases.map Base.lookup, overrides := []
    rules := if rules.isEmpty then none else some (rules.map fun name => (name, .bool true)) }

def fixable : RuleMeta := { fixable := true }

def takesList : RuleMeta := { primaryOptionArray := true }

def stockRules : Table Rule := [
  ("color-no-red", Rule.forbidValue fixable "red" (some "green")),
  ("color-no-blue", Rule.forbidValue {} "blue" none),
  ("block-no-empty", Rule.forbidEmpty {}),
  ("strict-empty", Rule.strictEmpty {}),
  ("noop-fix", Rule.noop fixable),
  ("old-rule", Rule.noop { deprecated := true }),
  ("older-rule", Rule.forbidEmpty { deprecated := true }),
  ("echo", Rule.echo {}),
  ("comment-list", Rule.listComments {}),
  ("decl-reverse", Rule.listDeclarations {}),
  ("add-comment", Rule.appendComment fixable),
  ("selector-list", Rule.forbidSelectors takesList),
  ("bare-empty", Rule.forbidEmpty {}),
  ("selector-one", Rule.forbidSelectors {})]

def stockPlugins : Table Plugin := [
  ("sheetlint-plugin-acme",
    ⟨"sheetlint-plugin-acme", false, [("acme/no-empty", Rule.forbidEmpty {})]⟩),
  ("acme-two", ⟨"acme-two", false, [
    ("acme/no-empty", Rule.noop fixable), ("acme/list", Rule.forbidSelectors takesList)]⟩),
  ("legacy-plugin", ⟨"legacy-name", true, [
    ("legacy/no-blue", Rule.forbidValue fixable "blue" (some "navy"))]⟩),
  ("no-namespace", ⟨"no-namespace", false, [("plain", Rule.noop {})]⟩),
  ("no-name", ⟨"nameless", false, [("", Rule.noop {})]⟩),
  ("empty-plugin", ⟨"empty-plugin", false, []⟩),
  ("shadow", ⟨"shadow", false, [("shadow/color-no-red", Rule.listComments {})]⟩)]

def stockConfigs : Table Config := [
  ("standard", stockConfig [] ["color-no-red", "block-no-empty"]),
  ("quiet-standard", { stockConfig ["standard"] [] with quiet := some true }),
  ("loop-a", stockConfig ["loop-b"] ["color-no-red"]),
  ("loop-b", stockConfig ["loop-a"] []),
  ("loop-self", stockConfig ["loop-self"] [])]

/-- The registry that runs start from. -/
def stock : Registry :=
  { empty with rules := stockRules, plugins := stockPlugins, configs := stockConfigs }
    |>.addParser "less" (Parser.ofMode "css" "less" ["less"])
    |>.addParser "unsup" (Parser.ofMode "unsupported" "unsup" ["uns"])
    |>.addParser "internal" (Parser.ofMode "internal" "internal" ["int"])
    |>.addParser "blank" (Parser.ofMode "blank" "blank" ["blank", "Blk"])

end StyleAudit.Registry
