import StyleAudit.Digest.Blake3
import StyleAudit.Json.Printer
import StyleAudit.Rule.Basic

/-!
The configuration of a lint run.

A configuration has settings of its own, builds on other configurations, and holds parts that
apply only to certain files. It is written as JSON; `Config.toJson` gives the written form in
which every field that takes one value or many is a list.
-/

namespace StyleAudit

/-- The fields of a configuration that hold no other configuration. -/
structure Settings where
  plugins : List PluginEntry := []
  /-- Rule names with their raw settings; null turns a rule off. -/
  rules : Option (Table Json) := none
  /-- Globs of inputs to skip. -/
  ignoreFiles : Option (List String) := none
  ignoreDisables : Option Bool := none
  quiet : Option Bool := none
  reportNeedlessDisables : Option Json := none
  reportInvalidScopeDisables : Option Json := none
  reportDescriptionlessDisables : Option Json := none
  /-- The name of a registered parser. -/
  customSyntax : Option String := none
  fix : Option Bool := none
  defaultSeverity : Option Severity := none
  allowEmptyInput : Option Bool := none
  cache : Option Bool := none
deriving Inhabited

mutual

structure Config extends Settings where
  /-- What the configuration builds on, in order. -/
  bases : List Base
  overrides : List Override

/-- A configuration to build on. -/
inductive Base where
  /-- The name or path of a configuration. -/
  | lookup (name : String)
  | inline (config : Config)

/-- A part for the inputs that match `files`. -/
structure Override where
  files : List String
  config : Config

end

/-- The configuration that sets nothing. -/
def Config.empty : Config := { bases := [], overrides := [] }

instance : Inhabited Config := ⟨Config.empty⟩

/-- Equality of optional values, up to the order of object fields. -/
def sameOption {α : Type} (same : α → α → Bool) : Option α → Option α → Bool
  | none, none => true
  | some a, some b => same a b
  | _, _ => false

/-- Equality of lists by a given equality of their members. -/
def sameList {α : Type} (same : α → α → Bool) : List α → List α → Bool
  | [], [] => true
  | a :: as, b :: bs => same a b && sameList same as bs
  | _, _ => false

/-- Equality of settings, up to the order of rules and of object fields. -/
def Settings.same (a b : Settings) : Bool :=
  sameList PluginEntry.same a.plugins b.plugins &&
  sameOption (fun x y => (Json.object x).same (.object y)) a.rules b.rules &&
  a.ignoreFiles == b.ignoreFiles && a.ignoreDisables == b.ignoreDisables &&
  a.quiet == b.quiet &&
  sameOption Json.same a.reportNeedlessDisables b.reportNeedlessDisables &&
  sameOption Json.same a.reportInvalidScopeDisables b.reportInvalidScopeDisables &&
  sameOption Json.same a.reportDescriptionlessDisables b.reportDescriptionlessDisables &&
  a.customSyntax == b.customSyntax && a.fix == b.fix &&
  a.defaultSeverity == b.defaultSeverity && a.allowEmptyInput == b.allowEmptyInput &&
  a.cache == b.cache

mutual

/-- Equality of configurations, up to the order of rules and of object fields. -/
def Config.same : Config → Config → Bool
  | ⟨s, bases, overrides⟩, ⟨t, bases', overrides'⟩ =>
    s.same t && Base.sameAll bases bases' && Override.sameAll overrides overrides'

def Base.same : Base → Base → Bool
  | .lookup a, .lookup b => a == b
  | .inline a, .inline b => a.same b
  | _, _ => false

def Base.sameAll : List Base → List Base → Bool
  | [], [] => true
  | a :: as, b :: bs => a.same b && Base.sameAll as bs
  | _, _ => false

def Override.same : Override → Override → Bool
  | ⟨files, config⟩, ⟨files', config'⟩ => files == files' && config.same config'

def Override.sameAll : List Override → List Override → Bool
  | [], [] => true
  | a :: as, b :: bs => a.same b && Override.sameAll as bs
  | _, _ => false

end

instance : BEq Base := ⟨Base.same⟩

instance : BEq Override := ⟨Override.same⟩

namespace Settings

def texts (xs : List String) : Json := .array (xs.map Json.string)

/-- A field that is left out when it is absent. -/
def field {α : Type} (key : String) (encode : α → Json) : Option α → Table Json
  | some a => [(key, encode a)]
  | none => []

/-- The fields from the rules on, in written order. -/
def fieldsFromRules (s : Settings) : Table Json :=
  field "rules" Json.object s.rules ++
  field "ignoreFiles" texts s.ignoreFiles ++
  field "ignoreDisables" Json.bool s.ignoreDisables ++
  field "quiet" Json.bool s.quiet ++
  field "reportNeedlessDisables" id s.reportNeedlessDisables ++
  field "reportInvalidScopeDisables" id s.reportInvalidScopeDisables ++
  field "reportDescriptionlessDisables" id s.reportDescriptionlessDisables ++
  field "customSyntax" Json.string s.customSyntax ++
  field "fix" Json.bool s.fix ++
  field "defaultSeverity" Severity.toJson s.defaultSeverity ++
  field "allowEmptyInput" Json.bool s.allowEmptyInput ++
  field "cache" Json.bool s.cache

/-- A list field that is left out when it is empty. -/
def listField (key : String) (items : List Json) : Table Json :=
  if items.isEmpty then [] else [(key, .array items)]

end Settings

mutual

/-- The fields of the written form. -/
def Config.fields : Config → Table Json
  | ⟨settings, bases, overrides⟩ =>
    Settings.listField "extends" (Base.toJsonAll bases) ++
    Settings.listField "plugins" (settings.plugins.map fun p => .string p.text) ++
    Settings.listField "overrides" (Override.toJsonAll overrides) ++
    settings.fieldsFromRules

def Base.toJson : Base → Json
  | .lookup name => .string name
  | .inline config => .object config.fields

def Base.toJsonAll : List Base → List Json
  | [] => []
  | base :: bases => base.toJson :: Base.toJsonAll bases

def Override.toJson : Override → Json
  | ⟨files, config⟩ => .object (("files", Settings.texts files) :: config.fields)

def Override.toJsonAll : List Override → List Json
  | [] => []
  | o :: os => o.toJson :: Override.toJsonAll os

end

namespace Config

def toJson (c : Config) : Json := .object c.fields

/-- The release that fingerprints are bound to. -/
def version : String := "0.1.0"

/-- The fingerprint of the written form. -/
def hash (c : Config) : String :=
  fingerprint (c.toJson.compact ++ version)

def hasRules (c : Config) : Bool :=
  match c.rules with
  | some rules => !rules.isEmpty
  | none => false

def withRule (c : Config) (name : String) (settings : Json) : Config :=
  { c with rules := some ((c.rules.getD []).insert name settings) }

def withBase (c : Config) (base : Base) : Config :=
  { c with bases := c.bases ++ [base] }

def withPlugin (c : Config) (entry : PluginEntry) : Config :=
  { c with plugins := c.plugins ++ [entry] }

def withOverride (c : Config) (o : Override) : Config :=
  { c with overrides := c.overrides ++ [o] }

end Config

end StyleAudit
