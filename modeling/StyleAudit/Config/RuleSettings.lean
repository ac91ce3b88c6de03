import StyleAudit.Config.Basic

/-!
The settings of one rule in the shape in which the rule gets them.

A raw setting is a primary option, or a list of the primary option and an object of secondary
options. Null, alone or as the primary option, turns the rule off.
-/

namespace StyleAudit

structure RuleSettings where
  primary : Json
  secondary : Table Json
  severity : Severity

namespace RuleSettings

/-- Splits the items of a raw setting into the primary option and the secondary options. -/
def splitItems : List Json → Json × Table Json
  | [] => (.null, [])
  | primary :: .object secondary :: _ => (primary, secondary)
  | primary :: _ => (primary, [])

/--
The options of a raw setting, or nothing when the rule is off. Where the primary option is itself
a list, a list that does not begin with a list is the primary option.
-/
def split? (primaryOptionArray : Bool) : Json → Option (Json × Table Json)
  | .null => none
  | .array items =>
    match items with
    | .null :: _ => none
    | .array first :: rest => some (splitItems (.array first :: rest))
    | items => some (if primaryOptionArray then (.array items, []) else splitItems items)
  | raw => some (raw, [])

/-- The notice about a severity that is none. -/
def unknownSeverity (severity rule : String) : String :=
  "Ignoring unknown severity \"" ++ severity ++ "\" for rule \"" ++ rule ++ "\""

/-- The severity that the options ask for, with the notices given on the way. -/
def severityOf (rule : String) (secondary : Table Json) (default : Option Severity) :
    Severity × List String :=
  let fallback := default.getD .error
  match secondary.find? "severity" with
  | some (.string name) =>
    match Severity.ofName? name with
    | some severity => (severity, [])
    | none => (fallback, [unknownSeverity name rule])
  | _ => (fallback, [])

/-- The settings of one rule, or nothing when it is off, with the notices given on the way. -/
def ofRaw (rule : String) (info : Option RuleMeta) (default : Option Severity) (raw : Json) :
    Option RuleSettings × List String :=
  match split? ((info.map RuleMeta.primaryOptionArray).getD false) raw with
  | none => (none, [])
  | some (primary, secondary) =>
    let (severity, notices) := severityOf rule secondary default
    (some ⟨primary, secondary, severity⟩, notices)

/-- The settings of all rules that are on, in their order. -/
def ofTable (infoOf : String → Option RuleMeta) (default : Option Severity) :
    Table Json → Table RuleSettings × List String
  | [] => ([], [])
  | (name, raw) :: rules =>
    let (settings, notices) := ofRaw name (infoOf name) default raw
    let (rest, more) := ofTable infoOf default rules
    match settings with
    | some settings => ((name, settings) :: rest, notices ++ more)
    | none => (rest, notices ++ more)

end RuleSettings

/-- The settings of all rules of a configuration that are on. -/
def Config.ruleSettings (infoOf : String → Option RuleMeta) (c : Config) :
    Table RuleSettings × List String :=
  RuleSettings.ofTable infoOf c.defaultSeverity (c.rules.getD [])

end StyleAudit
