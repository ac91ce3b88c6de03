import StyleAudit.Proofs.Everywhere
import StyleAudit.Proofs.Written

/-!
Writing a configuration and reading it again.

A configuration can be written in many ways: a list of one may stand without its brackets, a base
may be written out by position, an empty list may be left out. Whatever was read, the written form
is read as the same configuration. So two configurations with one written form are one, and their
fingerprints agree only if the hash of two texts does.
-/

namespace StyleAudit

open Json (recordField? optional?)

/-- Settings that a value can be read as: plugins are named, and an absent report option is not a
null. -/
structure Settings.Readable (s : Settings) : Prop where
  plugins : s.NamesPlugins
  needless : s.reportNeedlessDisables ≠ some .null
  invalidScope : s.reportInvalidScopeDisables ≠ some .null
  descriptionless : s.reportDescriptionlessDisables ≠ some .null

theorem Json.ne_some_null_of_optional? {v o : Option Json} (h : optional? some v = some o) :
    o ≠ some .null := by
  rintro rfl
  obtain ⟨w, -, hw, heq⟩ := optional?_eq_some h
  exact hw (Option.some.inj heq)

theorem Settings.ReadFrom.readable {v : Json} {s : Settings} (h : s.ReadFrom v) : s.Readable where
  plugins := h.plugins
  needless := Json.ne_some_null_of_optional? h.needless
  invalidScope := Json.ne_some_null_of_optional? h.invalidScope
  descriptionless := Json.ne_some_null_of_optional? h.descriptionless

theorem Config.readable_of_ofJson {v : Json} {c : Config} (h : ofJson v = .ok c) :
    c.Everywhere Settings.Readable := by
  exact everywhere_of_ofJson Json.inherited_true (fun _ hs => hs.readable) trivial h

/-! ## Settings -/

namespace Settings

theorem optional?_map {α : Type} {decode : Json → Option α} {encode : α → Json} {o : Option α}
    (h : ∀ a, o = some a → encode a ≠ .null ∧ decode (encode a) = some a) :
    optional? decode (o.map encode) = some o := by
  cases o with
  | none => rfl
  | some a =>
      obtain ⟨hnull, hdecode⟩ := h a rfl
      rw [Option.map_some, Json.optional?_some hnull, hdecode, Option.map_some]

theorem optional?_bool (o : Option Bool) : optional? Json.bool? (o.map Json.bool) = some o :=
  optional?_map fun _ _ => ⟨nofun, rfl⟩

theorem optional?_string (o : Option String) :
    optional? Json.text? (o.map Json.string) = some o :=
  optional?_map fun _ _ => ⟨nofun, rfl⟩

theorem optional?_object (o : Option (Table Json)) :
    optional? ruleTable? (o.map Json.object) = some o :=
  optional?_map fun _ _ => ⟨nofun, rfl⟩

theorem optional?_severity {severity? : Json → Option Severity}
    (h : ∀ s : Severity, severity? s.toJson = some s) (o : Option Severity) :
    optional? severity? (o.map Severity.toJson) = some o :=
  optional?_map fun s _ => ⟨nofun, h s⟩

theorem optional?_raw {o : Option Json} (h : o ≠ some .null) : optional? some o = some o := by
  cases o with
  | none => rfl
  | some v =>
      have hnull : v ≠ .null := fun heq => h (congrArg some heq)
      rw [Json.optional?_some hnull, Option.map_some]

theorem mapM_text? (xs : List String) : (xs.map Json.string).mapM Json.text? = some xs := by
  induction xs with
  | nil => rfl
  | cons x xs ih => simp [List.mapM_cons, Json.text?, ih]

theorem optional?_texts (o : Option (List String)) :
    optional? listOrSingle? (o.map texts) = some o :=
  optional?_map fun xs _ => ⟨nofun, mapM_text? xs⟩

end Settings

/-- A list as it is written: not at all if it is empty. -/
def Json.listed (items : List Json) : Option Json :=
  if items = [] then none else some (.array items)

/-- What the fields of an object say where a configuration is written in it. Its reader asks for
nothing else. -/
structure Config.WrittenIn (c : Config) (fields : Table Json) : Prop where
  bases : Table.find? "extends" fields = Json.listed (Base.toJsonAll c.bases)
  plugins : Table.find? "plugins" fields = Json.listed (c.plugins.map fun p => .string p.text)
  overrides : Table.find? "overrides" fields = Json.listed (Override.toJsonAll c.overrides)
  rules : Table.find? "rules" fields = c.rules.map .object
  ignoreFiles : Table.find? "ignoreFiles" fields = c.ignoreFiles.map Settings.texts
  ignoreDisables : Table.find? "ignoreDisables" fields = c.ignoreDisables.map .bool
  quiet : Table.find? "quiet" fields = c.quiet.map .bool
  needless : Table.find? "reportNeedlessDisables" fields = c.reportNeedlessDisables
  invalidScope : Table.find? "reportInvalidScopeDisables" fields = c.reportInvalidScopeDisables
  descriptionless :
    Table.find? "reportDescriptionlessDisables" fields = c.reportDescriptionlessDisables
  customSyntax : Table.find? "customSyntax" fields = c.customSyntax.map .string
  fix : Table.find? "fix" fields = c.fix.map .bool
  defaultSeverity : Table.find? "defaultSeverity" fields = c.defaultSeverity.map Severity.toJson
  allowEmptyInput : Table.find? "allowEmptyInput" fields = c.allowEmptyInput.map .bool
  cache : Table.find? "cache" fields = c.cache.map .bool

theorem Config.writtenIn_fields (c : Config) : c.WrittenIn c.fields := by
  cases c
  constructor <;>
    simp [fields, Settings.fieldsFromRules, Table.find?_append, Settings.find?_field,
      Settings.find?_listField, Json.listed]

/-- A further field does no harm, unless the reader knows it. -/
theorem Config.WrittenIn.cons {c : Config} {fields : Table Json} (h : c.WrittenIn fields)
    {key : String} (hkey : key ∉ Config.fieldNames) (v : Json) :
    c.WrittenIn ((key, v) :: fields) := by
  have hfind : ∀ other ∈ Config.fieldNames,
      Table.find? other ((key, v) :: fields) = Table.find? other fields := by
    intro other hother
    have hne : key ≠ other := by
      rintro rfl
      exact hkey hother
    simp [Table.find?, hne]
  constructor
  all_goals rw [hfind _ (by decide)]
  exacts [h.bases, h.plugins, h.overrides, h.rules, h.ignoreFiles, h.ignoreDisables, h.quiet,
    h.needless, h.invalidScope, h.descriptionless, h.customSyntax, h.fix, h.defaultSeverity,
    h.allowEmptyInput, h.cache]

theorem Settings.map_lookup_text {ps : List PluginEntry}
    (h : ∀ p ∈ ps, ∃ specifier, p = .lookup specifier) :
    (ps.map PluginEntry.text).map .lookup = ps := by
  have hid : ∀ p ∈ ps, (PluginEntry.lookup ∘ PluginEntry.text) p = id p := by
    intro p hp
    obtain ⟨specifier, rfl⟩ := h p hp
    rfl
  rw [List.map_map, List.map_congr_left hid, List.map_id]

theorem Settings.decode?_of_writtenIn {severity? : Json → Option Severity}
    (hseverity : ∀ s : Severity, severity? s.toJson = some s) {c : Config}
    (hc : c.toSettings.Readable) {fields : Table Json} (h : c.WrittenIn fields) :
    Settings.decode? severity? (.object fields) = some c.toSettings := by
  have hplugins : listOrSingle? (.array (c.plugins.map fun p => .string p.text)) =
      some (c.plugins.map PluginEntry.text) := by
    have htexts := mapM_text? (c.plugins.map PluginEntry.text)
    rwa [List.map_map] at htexts
  have hnames := map_lookup_text hc.plugins
  simp only [Settings.decode?, recordField?, h.plugins, h.rules, h.ignoreFiles, h.ignoreDisables,
    h.quiet, h.needless, h.invalidScope, h.descriptionless, h.customSyntax, h.fix,
    h.defaultSeverity, h.allowEmptyInput, h.cache, optional?_object, optional?_texts,
    optional?_bool, optional?_string, optional?_severity hseverity, optional?_raw hc.needless,
    optional?_raw hc.invalidScope, optional?_raw hc.descriptionless]
  -- An empty list of plugins is not written at all.
  by_cases hempty : c.plugins = []
  · simp only [hempty, Json.listed, List.map_nil, if_true, Option.bind_eq_bind, Option.bind_some]
    rw [← hempty]
    rfl
  · have hwritten : (c.plugins.map fun p => Json.string p.text) ≠ [] := by
      simpa using hempty
    simp only [Json.listed, if_neg hwritten, hplugins, Option.bind_eq_bind, Option.bind_some,
      hnames]
    rfl

/-! ## Configurations -/

theorem Severity.ofJson?_toJson (s : Severity) : ofJson? s.toJson = some s := by
  cases s <;> decide

theorem Severity.ofOverrideJson?_toJson (s : Severity) : ofOverrideJson? s.toJson = some s := by
  cases s <;> decide

theorem Base.decodeAll?_toJsonAll {bases : List Base}
    (h : ∀ b ∈ bases, decode? b.toJson = some b) : decodeAll? (toJsonAll bases) = some bases := by
  induction bases with
  | nil => rw [toJsonAll, decodeAll?]
  | cons b bases ih =>
      obtain ⟨hb, hbases⟩ := List.forall_mem_cons.1 h
      rw [toJsonAll, decodeAll?, hb, ih hbases]

theorem Override.decodeAll?_toJsonAll {os : List Override}
    (h : ∀ o ∈ os, decode? o.toJson = some o) : decodeAll? (toJsonAll os) = some os := by
  induction os with
  | nil => rw [toJsonAll, decodeAll?]
  | cons o os ih =>
      obtain ⟨ho, hos⟩ := List.forall_mem_cons.1 h
      rw [toJsonAll, decodeAll?, ho, ih hos]

theorem Base.decode?_toJson {b : Base}
    (h : ∀ c, b = .inline c → Config.decode? Severity.ofJson? (.object c.fields) = some c) :
    decode? b.toJson = some b := by
  cases b with
  | lookup name => rw [toJson, decode?]
  | inline c =>
      rw [toJson, decode?, h c rfl, Option.map_some]
      intro name heq
      cases heq

theorem Override.decode?_toJson {o : Override}
    (h : Config.decode? Severity.ofOverrideJson?
      (.object (("files", Settings.texts o.files) :: o.config.fields)) = some o.config) :
    decode? o.toJson = some o := by
  obtain ⟨files, config⟩ := o
  have hfiles : Settings.listOrSingle? (Settings.texts files) = some files :=
    Settings.mapM_text? files
  rw [toJson, decode?, h]
  simp [Table.find?, hfiles]

theorem Json.listed_eq_none {items : List Json} (h : listed items = none) : items = [] := by
  by_contra hne
  rw [listed, if_neg hne] at h
  cases h

theorem Json.listed_eq_some {items : List Json} {v : Json} (h : listed items = some v) :
    v = .array items := by
  rw [listed] at h
  split at h
  case isTrue => cases h
  case isFalse => exact (Option.some.inj h).symm

theorem Base.decode_listed {fields : Table Json} {bases : List Base}
    (hfield : Table.find? "extends" fields = Json.listed (toJsonAll bases))
    (h : decodeAll? (toJsonAll bases) = some bases) :
    (match _h : recordField? Config.fieldNames "extends" (.object fields) with
      | none => some []
      | some w => decodeMany? w) = some bases := by
  split
  case h_1 hnone =>
      rw [Json.listed_eq_none (hfield.symm.trans hnone), decodeAll?] at h
      exact h
  case h_2 w hw => rw [Json.listed_eq_some (hfield.symm.trans hw), decodeMany?, h]

theorem Override.decode_listed {fields : Table Json} {os : List Override}
    (hfield : Table.find? "overrides" fields = Json.listed (toJsonAll os))
    (h : decodeAll? (toJsonAll os) = some os) :
    (match _h : recordField? Config.fieldNames "overrides" (.object fields) with
      | none => some []
      | some (.array items) => decodeAll? items
      | some _ => none) = some os := by
  split
  case h_1 hnone =>
      rw [Json.listed_eq_none (hfield.symm.trans hnone), decodeAll?] at h
      exact h
  case h_2 items hitems =>
      have hwritten := Json.listed_eq_some (hfield.symm.trans hitems)
      rw [Json.array.inj hwritten, h]
  case h_3 w hnot hw => exact absurd (Json.listed_eq_some (hfield.symm.trans hw)) (hnot _)

/-- A configuration is read again wherever it is written. -/
theorem Config.decode?_of_writtenIn {c : Config} (hc : c.Everywhere Settings.Readable)
    {severity? : Json → Option Severity} (hseverity : ∀ s : Severity, severity? s.toJson = some s)
    {fields : Table Json} (h : c.WrittenIn fields) :
    decode? severity? (.object fields) = some c := by
  induction hc generalizing severity? fields with
  | @intro c own _ _ ihbases ihoverrides =>
      have hsettings := Settings.decode?_of_writtenIn hseverity own h
      have hbases : Base.decodeAll? (Base.toJsonAll c.bases) = some c.bases := by
        apply Base.decodeAll?_toJsonAll
        intro b hb
        apply Base.decode?_toJson
        intro inner heq
        exact ihbases inner (heq ▸ hb) Severity.ofJson?_toJson inner.writtenIn_fields
      have hoverrides : Override.decodeAll? (Override.toJsonAll c.overrides) =
          some c.overrides := by
        apply Override.decodeAll?_toJsonAll
        intro o ho
        apply Override.decode?_toJson
        apply ihoverrides o ho Severity.ofOverrideJson?_toJson
        exact o.config.writtenIn_fields.cons (by decide) _
      have hbasesField := Base.decode_listed h.bases hbases
      have hoverridesField := Override.decode_listed h.overrides hoverrides
      have hopen : Json.isOpenRecord fieldNames (.object fields) = true := rfl
      rw [decode?, if_pos hopen, hsettings]
      split
      case h_1 s bases overrides hs hb ho =>
          obtain rfl := Option.some.inj hs
          obtain rfl := Option.some.inj (hbasesField.symm.trans hb)
          obtain rfl := Option.some.inj (hoverridesField.symm.trans ho)
          cases c
          rfl
      case h_2 hnot => exact absurd hoverridesField (hnot _ _ _ rfl hbasesField)

theorem Config.overrideFaultInEntries?_toJsonAll {os : List Override}
    (h : ∀ o ∈ os, overrideFault? o.toJson = none) :
    overrideFaultInEntries? (Override.toJsonAll os) = none := by
  induction os with
  | nil => rw [Override.toJsonAll, overrideFaultInEntries?]
  | cons o os ih =>
      obtain ⟨ho, hos⟩ := List.forall_mem_cons.1 h
      obtain ⟨files, config⟩ := o
      have hfiles : (Override.toJson ⟨files, config⟩).field? "files" =
          some (Settings.texts files) := by
        rw [Override.toJson, Json.field?, Table.find?, if_pos rfl]
      rw [Override.toJsonAll, overrideFaultInEntries?, hfiles, ih hos]
      simp [Settings.texts, ho]

theorem Config.overrideFaultInBases?_toJsonAll {bases : List Base}
    (h : ∀ b ∈ bases, overrideFault? b.toJson = none) :
    overrideFaultInBases? (Base.toJsonAll bases) = none := by
  induction bases with
  | nil => rw [Base.toJsonAll, overrideFaultInBases?]
  | cons b bases ih =>
      obtain ⟨hb, hbases⟩ := List.forall_mem_cons.1 h
      rw [Base.toJsonAll, overrideFaultInBases?, hb, ih hbases]
      rfl

/-- What is written has no fault in its overrides: each has its files. -/
theorem Config.overrideFault?_of_writtenIn {c : Config} {fields : Table Json}
    (h : c.WrittenIn fields) : overrideFault? (.object fields) = none := by
  have hc : c.Everywhere fun _ => True := Everywhere.of_forall (fun _ => trivial) c
  induction hc generalizing fields with
  | @intro c _ _ _ ihbases ihoverrides =>
      have hentries : overrideFaultInEntries? (Override.toJsonAll c.overrides) = none := by
        apply overrideFaultInEntries?_toJsonAll
        rintro ⟨files, config⟩ ho
        rw [Override.toJson]
        exact ihoverrides _ ho (config.writtenIn_fields.cons (by decide) _)
      have hbases : overrideFaultInBases? (Base.toJsonAll c.bases) = none := by
        apply overrideFaultInBases?_toJsonAll
        intro b hb
        cases b with
        | lookup name =>
            rw [Base.toJson, overrideFault?]
            intro fields heq
            cases heq
        | inline inner =>
            rw [Base.toJson]
            exact ihbases inner hb inner.writtenIn_fields
      rw [overrideFault?]
      apply orElse_eq_none
      · split
        case h_1 => rfl
        case h_2 entries hfound =>
            have hwritten := Json.listed_eq_some (h.overrides.symm.trans hfound)
            rw [Json.array.inj hwritten, hentries]
        case h_3 v hnot hfound =>
            exact absurd (Json.listed_eq_some (h.overrides.symm.trans hfound)) (hnot _)
      · split
        case h_1 => rfl
        case h_2 entries hfound =>
            have hwritten := Json.listed_eq_some (h.bases.symm.trans hfound)
            rw [Json.array.inj hwritten, hbases]
        case h_3 v hnot hfound =>
            exact absurd (Json.listed_eq_some (h.bases.symm.trans hfound)) (hnot _)

/-- What was read is read again from its written form. -/
theorem Config.ofJson_toJson {v : Json} {c : Config} (h : ofJson v = .ok c) :
    ofJson c.toJson = .ok c := by
  have hread := decode?_of_writtenIn (readable_of_ofJson h) Severity.ofJson?_toJson
    c.writtenIn_fields
  rw [ofJson, toJson, overrideFault?_of_writtenIn c.writtenIn_fields, hread]

/-- Configurations that were read are told by the text of their written form. -/
theorem Config.eq_of_compact {v w : Json} {c d : Config} (hc : ofJson v = .ok c)
    (hd : ofJson w = .ok d) (h : c.toJson.compact = d.toJson.compact) : c = d := by
  have hjson : c.toJson = d.toJson := Json.compact_injective h
  have hread := ofJson_toJson hc
  rw [hjson, ofJson_toJson hd] at hread
  exact (Except.ok.inj hread).symm

/-! ## Fingerprints -/

theorem toList_loop (bytes : ByteArray) (i : Nat) (read : List UInt8) :
    ByteArray.toList.loop bytes i read = read.reverse ++ bytes.data.toList.drop i := by
  induction hleft : bytes.size - i generalizing i read with
  | zero =>
      have hend : bytes.data.toList.length ≤ i := by
        have hsize : bytes.data.toList.length = bytes.size := rfl
        omega
      rw [ByteArray.toList.loop, if_neg (by omega), List.drop_eq_nil_of_le hend, List.append_nil]
  | succ left ih =>
      have hlt : i < bytes.data.toList.length := by
        have hsize : bytes.data.toList.length = bytes.size := rfl
        omega
      have hsize : i < bytes.data.size := by simpa using hlt
      have hget : bytes.get! i = bytes.data.toList[i] := (getElem!_pos bytes.data i hsize).trans rfl
      rw [ByteArray.toList.loop, if_pos (by omega), ih (i + 1) _ (by omega),
        List.drop_eq_getElem_cons hlt, hget, List.reverse_cons, List.append_assoc]
      rfl

/-- The bytes of an array, as a list, tell the array. -/
theorem bytes_eq_of_toList {a b : ByteArray} (h : a.toList = b.toList) : a = b := by
  rw [ByteArray.toList, ByteArray.toList, toList_loop, toList_loop] at h
  apply ByteArray.ext
  apply Array.toList_inj.1
  simpa using h

def Config.hashed (c : Config) : List UInt8 :=
  (c.toJson.compact ++ version).toUTF8.toList

theorem Config.compact_eq_of_hashed {c d : Config} (h : c.hashed = d.hashed) :
    c.toJson.compact = d.toJson.compact := by
  have htext : c.toJson.compact ++ version = d.toJson.compact ++ version :=
    String.toByteArray_inj.1 (bytes_eq_of_toList h)
  apply String.toList_inj.1
  simpa using congrArg String.toList htext

/--
The written form of a configuration that was read is read as that configuration. Two such
configurations with one written text are one, and two different ones have one fingerprint only if
the hash collides on their bytes.
-/
theorem Config.round_trip {v w : Json} {c d : Config} (hc : ofJson v = .ok c)
    (hd : ofJson w = .ok d) :
    ofJson c.toJson = .ok c ∧
      (c.toJson.compact = d.toJson.compact → c = d) ∧
      (c ≠ d → c.hash = d.hash →
        c.hashed ≠ d.hashed ∧ Blake3.hexDigest c.hashed = Blake3.hexDigest d.hashed) := by
  refine ⟨ofJson_toJson hc, eq_of_compact hc hd, ?_⟩
  intro hne hhash
  refine ⟨?_, hhash⟩
  intro hbytes
  exact hne (eq_of_compact hc hd (compact_eq_of_hashed hbytes))

/-- A configuration by position, with an inline base by position and an override with one file. -/
def positionalSource : Json :=
  .array [.array [.array [.string "x", .string "p"]], .string "q",
    .array [.object [("files", .string "*.css"), ("rules", .object [("a", .bool true)]),
      ("extends", .string "y")]]]

/-- Null for all rules is their absence, null for one rule is a setting. -/
def nullSource : Json :=
  .object [("extends", .object [("rules", .null)]), ("rules", .object [("a", .null)])]

theorem Config.round_trip_nested :
    ∃ c d, ofJson positionalSource = .ok c ∧ ofJson nullSource = .ok d ∧
      c.plugins.map PluginEntry.text = ["q"] ∧ d.plugins.map PluginEntry.text = [] ∧
      ofJson c.toJson = .ok c ∧ ofJson d.toJson = .ok d ∧ c.toJson.compact ≠ d.toJson.compact := by
  have hread : ((ofJson positionalSource).toOption.bind fun c =>
      (ofJson nullSource).toOption.map fun d =>
        (c.plugins.map PluginEntry.text, d.plugins.map PluginEntry.text)) =
      some (["q"], []) := by decide +kernel
  cases hc : ofJson positionalSource with
  | error e =>
      rw [hc] at hread
      cases hread
  | ok c =>
      cases hd : ofJson nullSource with
      | error e =>
          rw [hc, hd] at hread
          cases hread
      | ok d =>
          rw [hc, hd] at hread
          have hplugins := Prod.mk.inj (Option.some.inj hread)
          have hne : c ≠ d := by
            rintro rfl
            exact absurd (hplugins.1.symm.trans hplugins.2) (by decide)
          refine ⟨c, d, rfl, rfl, hplugins.1, hplugins.2, (round_trip hc hd).1,
            (round_trip hd hc).1, ?_⟩
          exact fun htext => hne ((round_trip hc hd).2.1 htext)

end StyleAudit
