import StyleAudit.Error
import StyleAudit.Sheet.Node
import StyleAudit.Warning

/-!
Rules, and the plugins that bring them.

A rule is a function from its settings and a sheet to the sheet it leaves and what it found. It
has no state of its own, so the same inputs give the same findings.
-/

namespace StyleAudit

/-- What is known about a rule without running it. -/
structure RuleMeta where
  url : Option String := none
  fixable : Bool := false
  deprecated : Bool := false
  /-- Whether the primary option is itself a list. -/
  primaryOptionArray : Bool := false
deriving DecidableEq, Repr, Inhabited

def RuleMeta.toJson (m : RuleMeta) : Json :=
  .object (
    (match m.url with
      | some url => [("url", .string url)]
      | none => []) ++
    [("fixable", .bool m.fixable), ("deprecated", .bool m.deprecated)] ++
    (if m.primaryOptionArray then [("primaryOptionArray", .bool true)] else []))

/-- Fields that are absent keep their defaults. -/
def RuleMeta.ofJson? (v : Json) : Option RuleMeta := do
  let names := ["url", "fixable", "deprecated", "primaryOptionArray"]
  guard (Json.isOpenRecord names v)
  let flag (key : String) : Option Bool :=
    match Json.recordField? names key v with
    | none => some false
    | some b => b.bool?
  return {
    url := ← Json.optional? Json.text? (Json.recordField? names "url" v)
    fixable := ← flag "fixable"
    deprecated := ← flag "deprecated"
    primaryOptionArray := ← flag "primaryOptionArray" }

/-- The settings under which a rule runs on one sheet. -/
structure RuleContext where
  name : String
  primary : Json
  secondary : Table Json
  severity : Severity
  fix : Bool
  file : Option String

/-- A text that replaces whatever the rule reports. -/
def RuleContext.message? (ctx : RuleContext) : Option String := do
  (← ctx.secondary.find? "message").text?

/-- What a rule found. -/
structure Findings where
  warnings : List Warning
  invalidOptions : List String
deriving DecidableEq, Repr, Inhabited

namespace Findings

def none : Findings := ⟨[], []⟩

/-- The warning for a report: at its source, or at the start of the input without one. -/
def warningFor (ctx : RuleContext) (text : String) (source : Option SourceRange) : Warning :=
  let text := ctx.message?.getD (text ++ " (" ++ ctx.name ++ ")")
  let warning := match source with
    | some range => Warning.ofLocation ctx.name text range.location
    | .none => Warning.ofPosition ctx.name text 1 1
  { warning with severity := ctx.severity }

def report (f : Findings) (ctx : RuleContext) (text : String) (source : Option SourceRange) :
    Findings :=
  { f with warnings := f.warnings ++ [warningFor ctx text source] }

def invalidOption (f : Findings) (text : String) : Findings :=
  { f with invalidOptions := f.invalidOptions ++ [text] }

def hasInvalidOptions (f : Findings) : Bool :=
  !f.invalidOptions.isEmpty

end Findings

/-- A rule: what it is, and what it does to a sheet. -/
structure Rule where
  info : RuleMeta
  check : RuleContext → Sheet → Sheet × Findings

/-- A named set of rules. -/
structure Plugin where
  name : String
  /-- Whether it comes in a form that is going out of use. -/
  legacy : Bool
  rules : List (String × Rule)

/-- A plugin in a configuration. -/
inductive PluginEntry where
  /-- To be found under a specifier. -/
  | lookup (specifier : String)
  /-- Handed over directly. The handle tells one object from another. -/
  | attached (handle : Nat) (plugin : Plugin)

namespace PluginEntry

/-- Specifiers are compared by text and attached plugins by identity. -/
def same : PluginEntry → PluginEntry → Bool
  | .lookup a, .lookup b => a == b
  | .attached a _, .attached b _ => a == b
  | _, _ => false

instance : BEq PluginEntry := ⟨same⟩

/-- How the entry is written in a configuration. -/
def text : PluginEntry → String
  | .lookup specifier => specifier
  | .attached _ plugin => plugin.name

end PluginEntry

namespace Plugin

/-- The notice about a plugin in an old form. -/
def legacyNotice (p : Plugin) : String :=
  "Plugin \"" ++ p.name ++
    "\" uses a deprecated module format and may stop working in a future release"

/-- Adds the rules of a plugin; every rule name has to have a namespace. -/
def addRules (plugin : String) (functions : Table Rule) :
    List (String × Rule) → Except PluginError (Table Rule)
  | [] => .ok functions
  | (name, rule) :: rules =>
    if name = "" then .error (.missingRuleName plugin)
    else if !name.toList.contains '/' then .error (.missingNamespace name)
    else addRules plugin (functions.insert name rule) rules

/-- Finds the plugin of an entry. -/
def resolve (catalog : Table Plugin) : PluginEntry → Except PluginError Plugin
  | .attached _ plugin => .ok plugin
  | .lookup specifier =>
    match catalog.find? specifier with
    | some plugin => .ok plugin
    | none => .error (.notFound specifier)

/--
The rules of all plugins by name, where a later plugin replaces a rule of an earlier one, together
with the notices given on the way.
-/
def load (catalog : Table Plugin) (quiet : Bool) :
    Table Rule → List PluginEntry → List String × Except PluginError (Table Rule)
  | functions, [] => ([], .ok functions)
  | functions, entry :: entries =>
    match resolve catalog entry with
    | .error e => ([], .error e)
    | .ok plugin =>
      let notices := if plugin.legacy && !quiet then [plugin.legacyNotice] else []
      match addRules plugin.name functions plugin.rules with
      | .error e => (notices, .error e)
      | .ok functions =>
        let (more, result) := load catalog quiet functions entries
        (notices ++ more, result)

end Plugin

end StyleAudit
