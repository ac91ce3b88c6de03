import StyleAudit.Config.Basic
import StyleAudit.Json.Reader

/-!
Reading a configuration from JSON.

The overrides are checked first, on the raw value, so that a malformed property gets an error of
its own. Types are strict, fields that are not known are ignored, and null stands for absence
except where a list is expected.
-/

namespace StyleAudit

open Json (recordField? optional?)

/-- The fields of a configuration in the order of its positional form. -/
def Config.fieldNames : List String :=
  ["extends", "plugins", "overrides", "rules", "ignoreFiles", "ignoreDisables", "quiet",
    "reportNeedlessDisables", "reportInvalidScopeDisables", "reportDescriptionlessDisables",
    "customSyntax", "fix", "defaultSeverity", "allowEmptyInput", "cache"]

namespace Settings

/-- One text, or a list of texts. -/
def listOrSingle? : Json → Option (List String)
  | .string s => some [s]
  | .array items => items.mapM Json.text?
  | _ => none

def ruleTable? : Json → Option (Table Json)
  | .object fields => some fields
  | _ => none

/-- Reads the fields that hold no other configuration; `severity?` reads a severity. -/
def decode? (severity? : Json → Option Severity) (v : Json) : Option Settings := do
  let get (key : String) : Option Json := recordField? Config.fieldNames key v
  let plugins ← match get "plugins" with
    | none => some []
    | some w => listOrSingle? w
  return {
    plugins := plugins.map .lookup
    rules := ← optional? ruleTable? (get "rules")
    ignoreFiles := ← optional? listOrSingle? (get "ignoreFiles")
    ignoreDisables := ← optional? Json.bool? (get "ignoreDisables")
    quiet := ← optional? Json.bool? (get "quiet")
    reportNeedlessDisables := ← optional? some (get "reportNeedlessDisables")
    reportInvalidScopeDisables := ← optional? some (get "reportInvalidScopeDisables")
    reportDescriptionlessDisables := ← optional? some (get "reportDescriptionlessDisables")
    customSyntax := ← optional? Json.text? (get "customSyntax")
    fix := ← optional? Json.bool? (get "fix")
    defaultSeverity := ← optional? severity? (get "defaultSeverity")
    allowEmptyInput := ← optional? Json.bool? (get "allowEmptyInput")
    cache := ← optional? Json.bool? (get "cache") }

end Settings

mutual

/-- Reads a configuration written as an object, or as an array of its first fields. -/
def Config.decode? (severity? : Json → Option Severity) (v : Json) : Option Config :=
  if Json.isOpenRecord Config.fieldNames v then
    match Settings.decode? severity? v,
      (match _h : recordField? Config.fieldNames "extends" v with
        | none => some []
        | some w => Base.decodeMany? w),
      (match _h : recordField? Config.fieldNames "overrides" v with
        | none => some []
        | some (.array items) => Override.decodeAll? items
        | some _ => none) with
    | some settings, some bases, some overrides => some ⟨settings, bases, overrides⟩
    | _, _, _ => none
  else none
termination_by 3 * sizeOf v
decreasing_by
  · have := Json.sizeOf_recordField? _h
    omega
  · have := Json.sizeOf_recordField? _h
    simp only [Json.array.sizeOf_spec] at this
    omega

/-- A list of bases; failing that, the value as a single base. -/
def Base.decodeMany? (v : Json) : Option (List Base) :=
  match v with
  | .array items =>
    match Base.decodeAll? items with
    | some bases => some bases
    | none => (Base.decode? (.array items)).map fun base => [base]
  | v => (Base.decode? v).map fun base => [base]
termination_by 3 * sizeOf v + 2

def Base.decode? (v : Json) : Option Base :=
  match v with
  | .string name => some (.lookup name)
  | v => (Config.decode? Severity.ofJson? v).map .inline
termination_by 3 * sizeOf v + 1

def Base.decodeAll? (items : List Json) : Option (List Base) :=
  match items with
  | [] => some []
  | item :: items =>
    match Base.decode? item, Base.decodeAll? items with
    | some base, some bases => some (base :: bases)
    | _, _ => none
termination_by 3 * sizeOf items

/-- Reads an override, which has to be an object. -/
def Override.decode? (v : Json) : Option Override :=
  match v with
  | .object fields =>
    match
      (match Table.find? "files" fields with
        | none => some []
        | some w => Settings.listOrSingle? w),
      Config.decode? Severity.ofOverrideJson? (.object fields) with
    | some files, some config => some ⟨files, config⟩
    | _, _ => none
  | _ => none
termination_by 3 * sizeOf v + 1

def Override.decodeAll? (items : List Json) : Option (List Override) :=
  match items with
  | [] => some []
  | item :: items =>
    match Override.decode? item, Override.decodeAll? items with
    | some o, some os => some (o :: os)
    | _, _ => none
termination_by 3 * sizeOf items

end

mutual

/-- The first fault in the overrides of a raw configuration and of those nested in it. -/
def overrideFault? (v : Json) : Option OverrideFault :=
  match v with
  | .object fields =>
    (match _h : Table.find? "overrides" fields with
      | none => none
      | some (.array entries) => overrideFaultInEntries? entries
      | some _ => some .notArray) <|>
    (match _h : Table.find? "extends" fields with
      | none => none
      | some (.array entries) => overrideFaultInBases? entries
      | some base => overrideFault? base)
  | _ => none
termination_by sizeOf v
decreasing_by
  all_goals
    have := Json.sizeOf_find? _h
    simp only [Json.object.sizeOf_spec, Json.array.sizeOf_spec] at *
    omega

def overrideFaultInEntries? (entries : List Json) : Option OverrideFault :=
  match entries with
  | [] => none
  | entry :: entries =>
    (match entry.field? "files" with
      | none => some .withoutFiles
      | some .null => some .withoutFiles
      | some _ => overrideFault? entry) <|> overrideFaultInEntries? entries
termination_by sizeOf entries

def overrideFaultInBases? (entries : List Json) : Option OverrideFault :=
  match entries with
  | [] => none
  | entry :: entries => overrideFault? entry <|> overrideFaultInBases? entries
termination_by sizeOf entries

end

namespace Config

/-- Reads a configuration from a JSON value. -/
def ofJson (v : Json) : Except LintError Config :=
  match overrideFault? v with
  | some fault => .error (.overrides fault)
  | none =>
    match decode? Severity.ofJson? v with
    | some config => .ok config
    | none => .error (.config .malformed)

/-- Reads a configuration from relaxed JSON; a text without a value is the empty one. -/
def ofText (text : String) : Except LintError Config :=
  match Json.parse? text with
  | none => .error (.config .notJson)
  | some none => ofJson (.object [])
  | some (some v) => ofJson v

end Config

end StyleAudit
