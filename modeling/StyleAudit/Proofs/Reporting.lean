import StyleAudit.Proofs.Building

/-!
What the reports on directive comments say.

The option of a report is a flag, alone or in a row, and the row may hold settings behind the flag.
The validation accepts exactly these values. From a valid option a report tells what it has to say
about its ranges and finds nothing wrong, from any other it tells only what is wrong, and neither
touches the other reports.
-/

namespace StyleAudit

theorem Severity.ofName?_eq_some_iff {text : String} {s : Severity} :
    ofName? text = some s ↔ text = s.name := by
  refine ⟨fun h => ?_, fun h => by rw [h, ofName?_name]⟩
  unfold ofName? at h
  split at h
  · rename_i htext
    rw [htext, ← Option.some.inj h]
    rfl
  · split at h
    · rename_i htext
      rw [htext, ← Option.some.inj h]
      rfl
    · cases h

namespace DisableSettings

/-- The exceptions that a value stands for: those in a row, or the one that it is. -/
def exceptionsIn : Json → List Json
  | .array items => items
  | single => [single]

/-- The exception that an item is: a text that can be read as one. -/
def exceptionOf? (item : Json) : Option Exception :=
  item.text?.bind Exception.parse?

def Accepts (entry : String × Json) : Prop :=
  entry.1 = "except" ∧ (∀ item ∈ exceptionsIn entry.2, (exceptionOf? item).isSome) ∨
    entry.1 = "severity" ∧ (∃ s : Severity, entry.2 = .string s.name) ∨
    entry.1 ∈ ignoredKeys

/-- What the option of a report may be, with the flag and the settings that it stands for. -/
inductive Stands : Json → Bool → Table Json → Prop where
  | null : Stands .null false []
  | flag (enabled : Bool) : Stands (.bool enabled) enabled []
  | row (enabled : Bool) : Stands (.array [.bool enabled]) enabled []
  | settings (enabled : Bool) {options : Table Json} (h : ∀ entry ∈ options, Accepts entry) :
      Stands (.array [.bool enabled, .object options]) enabled options

def excepts (options : Table Json) (rule : String) : Bool :=
  options.any fun (key, value) => key == "except" &&
    ((exceptionsIn value).filterMap exceptionOf?).any fun e => e.isMatch rule

/-- The severity in the settings; the last one counts. -/
def severityIn? (options : Table Json) : Option Severity :=
  (options.filterMap fun (key, value) =>
    if key = "severity" then value.text?.bind Severity.ofName? else none).getLast?

/-! ### Reading the settings -/

def readEntry (field : String) (o : Options) (entry : String × Json) : Options :=
  if entry.1 = "except" then readExceptions field o (exceptionsIn entry.2)
  else if entry.1 = "severity" then
    match entry.2.text?.bind Severity.ofName? with
    | some severity => { o with severity := some severity }
    | none => { o with faults := o.faults ++ [invalidSeverity entry.2 field] }
  else if ignoredKeys.contains entry.1 then o
  else { o with faults := o.faults ++ [invalidName entry.1 field] }

theorem readOptions_cons (field : String) (o : Options) (entry : String × Json)
    (rest : Table Json) :
    readOptions field o (entry :: rest) = readOptions field (readEntry field o entry) rest := by
  obtain ⟨key, value⟩ := entry
  cases value <;> rfl

/-- What is read of a row of exceptions: those that can be read, and a fault for each other one. -/
theorem readExceptions_spec (field : String) (o : Options) (items : List Json) :
    readExceptions field o items =
      { o with
        except := o.except ++ items.filterMap exceptionOf?
        faults := o.faults ++ (items.filter fun item => (exceptionOf? item).isNone).map fun item =>
          invalidExcept item field } := by
  induction items generalizing o with
  | nil => simp [readExceptions]
  | cons item items ih =>
      have hread : item.text?.bind Exception.parse? = exceptionOf? item := rfl
      rw [readExceptions, hread]
      cases hitem : exceptionOf? item with
      | some e => simp [ih, hitem]
      | none => simp [ih, hitem]

theorem isNamed_iff {value : Json} :
    (∃ s : Severity, value = .string s.name) ↔ (value.text?.bind Severity.ofName?).isSome := by
  cases value <;>
    simp [Json.text?, Option.isSome_iff_exists, Severity.ofName?_eq_some_iff]

/-- What one setting adds: a fault unless the report takes it, its exceptions, its severity. -/
theorem readEntry_spec (field : String) (o : Options) (entry : String × Json) :
    ((readEntry field o entry).faults = [] ↔ o.faults = [] ∧ Accepts entry) ∧
      (∀ rule, (readEntry field o entry).except.any (·.isMatch rule) =
        (o.except.any (·.isMatch rule) || excepts [entry] rule)) ∧
      (readEntry field o entry).severity = (severityIn? [entry] <|> o.severity) := by
  obtain ⟨key, value⟩ := entry
  rw [readEntry, Accepts]
  by_cases hexcept : key = "except"
  · subst hexcept
    rw [if_pos rfl, readExceptions_spec]
    exact ⟨by simp [ignoredKeys, Option.isSome_iff_ne_none],
      fun rule => by simp only [excepts, List.any_append, List.any_cons, List.any_nil,
        Bool.or_false, beq_self_eq_true, Bool.true_and], rfl⟩
  · by_cases hseverity : key = "severity"
    · subst hseverity
      cases hname : value.text?.bind Severity.ofName? with
      | some s => simp [excepts, severityIn?, isNamed_iff, hname, ignoredKeys]
      | none => simp [excepts, severityIn?, isNamed_iff, hname, ignoredKeys]
    · by_cases hignored : key ∈ ignoredKeys
      · simp [hexcept, hseverity, hignored, excepts, severityIn?]
      · simp [hexcept, hseverity, hignored, excepts, severityIn?]

theorem excepts_cons (entry : String × Json) (options : Table Json) (rule : String) :
    excepts (entry :: options) rule = (excepts [entry] rule || excepts options rule) := by
  rw [excepts, List.any_cons]
  simp [excepts]

theorem severityIn?_cons (entry : String × Json) (options : Table Json) :
    severityIn? (entry :: options) = (severityIn? options <|> severityIn? [entry]) := by
  rw [severityIn?, ← List.singleton_append, List.filterMap_append, List.getLast?_append,
    Option.or_eq_orElse]
  rfl

/-- What the settings come to: nothing is wrong exactly if the report takes each of them. -/
theorem readOptions_spec (field : String) (o : Options) (options : Table Json) :
    ((readOptions field o options).faults = [] ↔
        o.faults = [] ∧ ∀ entry ∈ options, Accepts entry) ∧
      (∀ rule, (readOptions field o options).except.any (·.isMatch rule) =
        (o.except.any (·.isMatch rule) || excepts options rule)) ∧
      (readOptions field o options).severity = (severityIn? options <|> o.severity) := by
  induction options generalizing o with
  | nil => simp [readOptions, excepts, severityIn?]
  | cons entry rest ih =>
      obtain ⟨hfaults, hexcept, hseverity⟩ := readEntry_spec field o entry
      obtain ⟨ihfaults, ihexcept, ihseverity⟩ := ih (readEntry field o entry)
      rw [readOptions_cons]
      refine ⟨?_, fun rule => ?_, ?_⟩
      · rw [ihfaults, hfaults, List.forall_mem_cons, and_assoc]
      · rw [ihexcept, hexcept, excepts_cons entry rest, Bool.or_assoc]
      · rw [ihseverity, hseverity, severityIn?_cons entry rest]
        cases severityIn? rest <;> rfl

/-- The flag and the settings are told apart exactly in the values that an option may be. -/
theorem stands_iff {field : String} {raw : Json} {enabled : Bool} {options : Table Json} :
    Stands raw enabled options ↔
      split field raw = .ok (enabled, options) ∧ ∀ entry ∈ options, Accepts entry := by
  constructor
  · intro h
    cases h with
    | settings _ h => exact ⟨rfl, h⟩
    | _ => exact ⟨rfl, nofun⟩
  · rintro ⟨hsplit, haccepts⟩
    unfold split at hsplit
    split at hsplit
    · obtain ⟨rfl, rfl⟩ := Prod.mk.inj (Except.ok.inj hsplit)
      exact .null
    · obtain ⟨rfl, rfl⟩ := Prod.mk.inj (Except.ok.inj hsplit)
      exact .flag _
    · split at hsplit
      · obtain ⟨rfl, rfl⟩ := Prod.mk.inj (Except.ok.inj hsplit)
        exact .row _
      · obtain ⟨rfl, rfl⟩ := Prod.mk.inj (Except.ok.inj hsplit)
        exact .settings _ haccepts
      · cases hsplit
      · cases hsplit
      · cases hsplit
    · cases hsplit

end DisableSettings

namespace DisableReport

open DisableSettings

def active (c : Config) : List DisableReport :=
  if c.ignoreDisables.getD false then [invalidScope, descriptionless]
  else [needless, invalidScope, descriptionless]

/-- The ranges that a report is about: the unused, those of a rule that is off, the unexplained. -/
def subjects (isEnabled : String → Bool) (ranges : List DisabledRange) (used : List Bool) :
    DisableReport → List DisabledRange
  | needless => ((ranges.zip used).filter fun (_, used) => !used).map Prod.fst
  | invalidScope => ranges.filter fun range => range.rule.any fun rule => !isEnabled rule
  | descriptionless => ranges.filter fun range => range.description.isNone

/-- What a report finds about a range, at its comment. -/
def finding (report : DisableReport) (severity : Severity) (range : DisabledRange) : Warning :=
  ⟨report.ruleName, report.text range, severity, range.comment.line, range.comment.column,
    none, none⟩

/-- What a report tells: its warnings, and what is wrong with its option. -/
inductive Tells (report : DisableReport) (c : Config) (isEnabled : String → Bool)
    (ranges : List DisabledRange) (used : List Bool) : List Warning → List String → Prop where
  | unset (h : report.option? c = none) : Tells report c isEnabled ranges used [] []
  | valid {raw : Json} {enabled : Bool} {options : Table Json}
      (h : report.option? c = some raw) (hraw : Stands raw enabled options) :
      Tells report c isEnabled ranges used
        (((report.subjects isEnabled ranges used).filter fun range =>
          enabled != excepts options range.ruleName).map
            (report.finding ((severityIn? options <|> c.defaultSeverity).getD .error))) []
  | invalid {raw : Json} {faults : List String} (h : report.option? c = some raw)
      (hraw : ∀ enabled options, ¬ Stands raw enabled options) (hfaults : faults ≠ []) :
      Tells report c isEnabled ranges used [] faults

variable {report : DisableReport} {c : Config} {isEnabled : String → Bool}
  {ranges : List DisabledRange} {used : List Bool}

/-- As long as there is a flag for each range, a report passes over none. -/
theorem map_fst_filter_objects (h : used.length = ranges.length) :
    ((ranges.zip used).filter fun (range, used) => report.objects isEnabled range used).map
        Prod.fst = report.subjects isEnabled ranges used := by
  have hfst (p : DisabledRange → Bool) :
      ((ranges.zip used).filter fun (range, _) => p range).map Prod.fst = ranges.filter p := by
    have hzip : (ranges.zip used).map Prod.fst = ranges :=
      List.map_fst_zip (Nat.le_of_eq h.symm)
    calc
      _ = ((ranges.zip used).map Prod.fst).filter p := by rw [List.filter_map]; rfl
      _ = ranges.filter p := by rw [hzip]
  cases report with
  | needless => rfl
  | invalidScope =>
      rw [subjects, ← hfst]
      congr 2
      funext ⟨range, _⟩
      cases hrule : range.rule <;> simp [objects, hrule]
  | descriptionless => exact hfst fun range => range.description.isNone

theorem warnings_eq (h : used.length = ranges.length) (settings : DisableSettings) :
    report.warnings settings isEnabled (ranges.zip used) =
      ((report.subjects isEnabled ranges used).filter fun range =>
        settings.appliesTo range.ruleName).map (report.finding settings.severity) := by
  rw [warnings, ← map_fst_filter_objects h, List.filter_map, List.map_map, List.filter_filter]
  simp only [Bool.and_comm]
  rfl

theorem validate_of_stands {raw : Json} {enabled : Bool} {options : Table Json}
    (h : report.option? c = some raw) (hraw : Stands raw enabled options) :
    (validate c report).2 = [] ∧
      (∀ rule, ((validate c report).1.any fun settings => settings.appliesTo rule) =
        (enabled != excepts options rule)) ∧
      ∀ settings ∈ (validate c report).1,
        settings.severity = (severityIn? options <|> c.defaultSeverity).getD .error := by
  obtain ⟨hsplit, haccepts⟩ : split report.ruleName raw = .ok (enabled, options) ∧ _ :=
    stands_iff.mp hraw
  obtain ⟨hfaults, hexcept, hseverity⟩ := readOptions_spec report.ruleName ⟨[], none, []⟩ options
  have hsound := hfaults.mpr ⟨rfl, haccepts⟩
  simp only [validate, h, hsplit]
  generalize readOptions report.ruleName ⟨[], none, []⟩ options = o at hexcept hseverity hsound
  rw [hsound, if_neg (by decide)]
  by_cases hoff : !enabled && o.except.isEmpty
  · obtain ⟨rfl, hnone⟩ : enabled = false ∧ o.except = [] := by simpa using hoff
    rw [if_pos hoff]
    refine ⟨rfl, fun rule => ?_, nofun⟩
    have hrule : excepts options rule = false := by simpa [hnone] using (hexcept rule).symm
    rw [hrule]
    rfl
  · rw [if_neg hoff]
    refine ⟨rfl, fun rule => ?_, fun settings hsettings => ?_⟩
    · have hrule : o.except.any (·.isMatch rule) = excepts options rule := hexcept rule
      rw [← hrule]
      rfl
    · have hor : o.severity = severityIn? options := by simpa using hseverity
      rw [← Option.some.inj hsettings, ← hor]

theorem validate_of_not_stands {raw : Json} (h : report.option? c = some raw)
    (hraw : ∀ enabled options, ¬ Stands raw enabled options) :
    (validate c report).1 = none ∧ (validate c report).2 ≠ [] := by
  simp only [validate, h]
  cases hsplit : split report.ruleName raw with
  | error fault => exact ⟨rfl, List.cons_ne_nil _ _⟩
  | ok parts =>
      obtain ⟨enabled, options⟩ := parts
      obtain ⟨hfaults, -⟩ := readOptions_spec report.ruleName ⟨[], none, []⟩ options
      have hfaulty : (readOptions report.ruleName ⟨[], none, []⟩ options).faults ≠ [] :=
        fun hsound => hraw _ _ (stands_iff.mpr ⟨hsplit, (hfaults.mp hsound).2⟩)
      simp [hfaulty]

/-- What the validation makes of an option is what the report tells. -/
theorem tells_validate (h : used.length = ranges.length) :
    report.Tells c isEnabled ranges used (report.reported c isEnabled (ranges.zip used))
      (validate c report).2 := by
  cases hraw : report.option? c with
  | none => simpa [reported, validate, hraw] using Tells.unset hraw
  | some raw =>
      by_cases hstands : ∃ enabled options, Stands raw enabled options
      · obtain ⟨enabled, options, hstands⟩ := hstands
        obtain ⟨hsound, happlies, hseverity⟩ := validate_of_stands hraw hstands
        have hreported : report.reported c isEnabled (ranges.zip used) =
            ((report.subjects isEnabled ranges used).filter fun range =>
              enabled != excepts options range.ruleName).map
                (report.finding ((severityIn? options <|> c.defaultSeverity).getD .error)) := by
          simp only [← happlies]
          rw [reported]
          cases hvalid : (validate c report).1 with
          | none => simp
          | some settings =>
              rw [← hseverity settings hvalid]
              exact warnings_eq h settings
        rw [hsound, hreported]
        exact .valid hraw hstands
      · have hstands : ∀ enabled options, ¬ Stands raw enabled options :=
          fun enabled options h => hstands ⟨enabled, options, h⟩
        obtain ⟨hnone, hfaults⟩ := validate_of_not_stands hraw hstands
        rw [reported, hnone]
        exact .invalid hraw hstands hfaults

/--
The reports that run tell what they have to tell, in their order, and nothing else becomes of the
result.
-/
theorem addAll_eq_tell (c : Config) (isEnabled : String → Bool) {ranges : List DisabledRange}
    {used : List Bool} (h : used.length = ranges.length) (r : LintResult) :
    ∃ told : DisableReport → List Warning × List String,
      (∀ report : DisableReport,
        report.Tells c isEnabled ranges used (told report).1 (told report).2) ∧
        addAll c isEnabled ranges used r =
          r.tell ((active c).flatMap fun report => (told report).1)
            ((active c).flatMap fun report => (told report).2) := by
  refine ⟨fun report => (report.reported c isEnabled (ranges.zip used), (validate c report).2),
    fun report => tells_validate h, ?_⟩
  rw [addAll, active]
  split
  · simp [addTo_eq, LintResult.tell_tell]
  · simp [addTo_eq, LintResult.tell_tell]

/-- A configuration whose reports make exceptions, by name and by expression: one of what it would
tell, one of what it would not. The option of the third is a text, which is no option. -/
def mixedOptions : Config :=
  { Config.empty with
    reportNeedlessDisables := some (.array [.bool true,
      .object [("except", .array [.string "sheet-order", .string "/^block-/"]),
        ("severity", .string "warning")]])
    reportInvalidScopeDisables := some (.string "yes")
    reportDescriptionlessDisables := some (.array [.bool false,
      .object [("except", .array [.string "color-no-red", .string "/^block-/"])]]) }

/-- Directives about three rules, and one about all rules, none with a description. -/
def bareRanges : List DisabledRange :=
  [⟨some "color-no-red", 1, none, ⟨1, 1⟩, none⟩, ⟨some "block-no-empty", 1, none, ⟨1, 1⟩, none⟩,
    ⟨some "sheet-order", 1, none, ⟨1, 1⟩, none⟩, ⟨none, 2, some 4, ⟨2, 3⟩, none⟩]

theorem addAll_eq_tell_mixedOptions :
    [false, false, false, true].length = bareRanges.length ∧
      (∃ told : DisableReport → List Warning × List String,
        (∀ report : DisableReport, report.Tells mixedOptions (fun _ => true) bareRanges
          [false, false, false, true] (told report).1 (told report).2) ∧
          addAll mixedOptions (fun _ => true) bareRanges [false, false, false, true] default =
            (default : LintResult).tell
              ((active mixedOptions).flatMap fun report => (told report).1)
              ((active mixedOptions).flatMap fun report => (told report).2)) ∧
      (addAll mixedOptions (fun _ => true) bareRanges [false, false, false, true]
          default).warnings.map (fun w => (w.text, w.severity)) =
        [("Needless disable for \"color-no-red\"", .warning),
          ("Disable for \"color-no-red\" is missing a description", .error),
          ("Disable for \"block-no-empty\" is missing a description", .error)] :=
  ⟨rfl, addAll_eq_tell mixedOptions _ rfl default, by decide +kernel⟩

end DisableReport

end StyleAudit
