import StyleAudit.Lint.Source
import StyleAudit.Rule.Stock

/-!
What fixing reports.

A rule that fixes edits the sheet instead of reporting. Where no rule has anything to edit, a lint
that fixes reports what a lint that does not fix reports. Where a rule does edit, and a directive
comment keeps the text from being written back, the problem is neither fixed nor reported.
-/

namespace StyleAudit

namespace Node

mutual

/-- An edit that leaves a tree as it is leaves each of its declarations as it is, and vice versa. -/
theorem edit_mapDeclaration_eq_self_iff (f : Declaration → Declaration) :
    (node : Node) → (node.edit (mapDeclaration f) = node ↔
      ∀ d ∈ node.walk.filterMap declaration?, f d = d)
  | .rule selector nodes raws source => by
      simp [edit, mapDeclaration, walk, declaration?,
        editAll_mapDeclaration_eq_self_iff f nodes]
  | .block name params nodes raws source => by
      simp [edit, mapDeclaration, walk, declaration?,
        editAll_mapDeclaration_eq_self_iff f nodes]
  | .statement name params raws source => by simp [edit, mapDeclaration, walk, declaration?]
  | .decl d => by simp [edit, mapDeclaration, walk, declaration?]
  | .comment c => by simp [edit, mapDeclaration, walk, declaration?]

theorem editAll_mapDeclaration_eq_self_iff (f : Declaration → Declaration) :
    (nodes : List Node) → (editAll (mapDeclaration f) nodes = nodes ↔
      ∀ d ∈ (walkAll nodes).filterMap declaration?, f d = d)
  | [] => by simp [editAll, walkAll]
  | node :: nodes => by
      have hnode := edit_mapDeclaration_eq_self_iff f node
      have hnodes := editAll_mapDeclaration_eq_self_iff f nodes
      rw [editAll, walkAll, List.filterMap_append, List.cons.injEq, hnode, hnodes]
      simp only [List.mem_append]
      constructor
      · rintro ⟨hhead, htail⟩ d (hd | hd)
        · exact hhead d hd
        · exact htail d hd
      · intro h
        exact ⟨fun d hd => h d (.inl hd), fun d hd => h d (.inr hd)⟩

end

end Node

theorem Sheet.mapDeclarations_eq_self_iff (f : Declaration → Declaration) (s : Sheet) :
    s.mapDeclarations f = s ↔ ∀ d ∈ s.declarations, f d = d := by
  have hnodes := Node.editAll_mapDeclaration_eq_self_iff f s.nodes
  constructor
  · intro h
    exact hnodes.1 (congrArg Sheet.nodes h)
  · intro h
    rw [Sheet.mapDeclarations, Sheet.edit, hnodes.2 h]

namespace Rule

/-- A rule that edits the sheet instead of reporting, and only where it is to fix. Where it edits
nothing it reports what it would report without fixing. -/
structure EditsInstead (rule : Rule) : Prop where
  keeps : ∀ ctx sheet, ctx.fix = false → (rule.check ctx sheet).1 = sheet
  reports : ∀ ctx sheet, (rule.check ctx sheet).1 = sheet →
    (rule.check ctx sheet).2 = (rule.check { ctx with fix := false } sheet).2

/-- A rule that objects to a value edits instead of reporting, unless it gives the same value. -/
theorem editsInstead_forbidValue {info : RuleMeta} {value : String} {replacement : Option String}
    (hne : replacement ≠ some value) : (forbidValue info value replacement).EditsInstead := by
  constructor
  · intro ctx sheet hfix
    simp [forbidValue, hfix]
  · intro ctx sheet hsame
    by_cases hfix : ctx.fix = true
    · cases replacement with
      | none =>
          simp only [forbidValue, hfix]
          rfl
      | some new =>
          simp only [forbidValue, hfix] at hsame ⊢
          rw [Sheet.mapDeclarations_eq_self_iff] at hsame
          have hnone : (sheet.declarations.filter fun d => d.value == value) = [] := by
            rw [List.filter_eq_nil_iff]
            intro d hd hvalue
            have hvalue : d.value = value := by simpa using hvalue
            have hkept := congrArg Declaration.value (hsame d hd)
            rw [if_pos hvalue] at hkept
            exact hne (congrArg some (hkept.trans hvalue))
          rw [hnone, List.foldl_nil]
    · rw [Bool.not_eq_true] at hfix
      rw [← hfix]

theorem keeps_forbidValue_none {info : RuleMeta} {value : String} (ctx : RuleContext)
    (sheet : Sheet) : ((forbidValue info value none).check ctx sheet).1 = sheet := by
  simp [forbidValue]

/-- A rule has nothing to edit in a sheet where no declaration has the value that it replaces. -/
theorem check_forbidValue_eq_self {info : RuleMeta} {value : String} {replacement : Option String}
    {sheet : Sheet} (h : ∀ d ∈ sheet.declarations, d.value ≠ value) (ctx : RuleContext) :
    ((forbidValue info value replacement).check ctx sheet).1 = sheet := by
  by_cases hfix : ctx.fix = true
  · cases replacement with
    | none => exact keeps_forbidValue_none ctx sheet
    | some new =>
        simp only [forbidValue, hfix]
        rw [Sheet.mapDeclarations_eq_self_iff]
        intro d hd
        exact if_neg (h d hd)
  · simp [forbidValue, hfix]

end Rule

namespace EffectiveConfig

def withoutFix (r : EffectiveConfig) : EffectiveConfig :=
  { r with config := { r.config with fix := some false } }

def Runs (r : EffectiveConfig) (registry : Registry) (name : String) (settings : RuleSettings)
    (rule : Rule) : Prop :=
  (name, settings) ∈ r.rules ∧ (r.quiet && settings.severity != .error) = false ∧
    r.rule? registry name = some rule

def EditsInstead (r : EffectiveConfig) (registry : Registry) : Prop :=
  ∀ name settings rule, r.Runs registry name settings rule → rule.EditsInstead

/-- No rule that is to fix has anything to edit in a sheet. -/
def Idle (r : EffectiveConfig) (registry : Registry) (file : Option String) (sheet : Sheet) :
    Prop :=
  ∀ name settings rule, r.Runs registry name settings rule → RuleRun.fixes r settings = true →
    (rule.check (RuleRun.context r file name settings) sheet).1 = sheet

end EffectiveConfig

namespace RuleRun

variable {r : EffectiveConfig} {registry : Registry} {file : Option String} {sheet : Sheet}

theorem context_withoutFix (r : EffectiveConfig) (file : Option String) (name : String)
    (settings : RuleSettings) :
    context r.withoutFix file name settings = { context r file name settings with fix := false } :=
  rfl

/-- Two runs that have reported the same and have left the sheet as it was. -/
structure Alike (sheet : Sheet) (a b : RuleRun) : Prop where
  left : a.sheet = sheet
  right : b.sheet = sheet
  warnings : a.warnings = b.warnings
  result : a.result = b.result

/-- One rule that has nothing to edit reports the same with fixing and without. -/
theorem Alike.step {a b : RuleRun} (h : Alike sheet a b) (hrules : r.EditsInstead registry)
    (hidle : r.Idle registry file sheet) {entry : String × RuleSettings}
    (hentry : entry ∈ r.rules) :
    Alike sheet (step r registry file a entry) (step r.withoutFix registry file b entry) := by
  obtain ⟨name, settings⟩ := entry
  have hquiet : r.withoutFix.quiet = r.quiet := rfl
  have hrule : r.withoutFix.rule? registry name = r.rule? registry name := rfl
  by_cases hskip : (r.quiet && settings.severity != .error) = true
  · simpa only [RuleRun.step, hquiet, hskip, ↓reduceIte] using h
  · rw [Bool.not_eq_true] at hskip
    simp only [RuleRun.step, hquiet, hskip, hrule, Bool.false_eq_true, ↓reduceIte]
    cases hfound : r.rule? registry name with
    | none => exact ⟨h.left, h.right, by rw [h.warnings], h.result⟩
    | some rule =>
        have hruns : r.Runs registry name settings rule :=
          ⟨hentry, hskip, hfound⟩
        have hedits := hrules name settings rule hruns
        have hkept : (rule.check (context r file name settings) sheet).1 = sheet := by
          by_cases hfix : fixes r settings = true
          · exact hidle name settings rule hruns hfix
          · rw [Bool.not_eq_true] at hfix
            exact hedits.keeps _ sheet hfix
        have hreports := hedits.reports _ sheet hkept
        rw [← context_withoutFix] at hreports
        constructor
        · simp only [runRule, h.left, hkept]
        · simp only [runRule, h.right]
          exact hedits.keeps _ sheet rfl
        · simp only [runRule, h.left, h.right, h.warnings, hreports]
        · simp only [runRule, h.left, h.right, h.result, hreports]

/-- Rules that have nothing to edit report the same with fixing and without. -/
theorem alike_runAll (hrules : r.EditsInstead registry) (hidle : r.Idle registry file sheet) :
    Alike sheet (runAll r registry file sheet) (runAll r.withoutFix registry file sheet) := by
  have hrows : ∀ entries : List (String × RuleSettings), (∀ entry ∈ entries, entry ∈ r.rules) →
      ∀ a b, Alike sheet a b → Alike sheet (entries.foldl (RuleRun.step r registry file) a)
        (entries.foldl (RuleRun.step r.withoutFix registry file) b) := by
    intro entries
    induction entries with
    | nil => exact fun _ a b h => h
    | cons entry entries ih =>
        intro hmem a b h
        apply ih (fun other hother => hmem other (List.mem_cons_of_mem entry hother))
        exact h.step hrules hidle (hmem entry List.mem_cons_self)
  exact hrows r.rules (fun _ h => h) _ _ ⟨rfl, rfl, rfl, rfl⟩

end RuleRun

/-- A check that fixes but finds nothing to edit reports what a check without fixing reports. -/
theorem CheckedSheet.result_withoutFix {r : EffectiveConfig} {registry : Registry}
    {file : Option String} {sheet : Sheet} (print : Sheet → String)
    (hrules : r.EditsInstead registry) (hidle : r.Idle registry file sheet) :
    (make r.withoutFix registry print file sheet).result =
      (make r registry print file sheet).result := by
  have halike := RuleRun.alike_runAll hrules hidle
  simp only [make, halike.warnings, halike.result]
  rfl

namespace Linter

/-- Where no rule that is to fix has anything to edit in the sheet that was read, the lint of an
input with fixing on has the result of the lint with fixing off, whether the text may be written
back or not. -/
theorem result_withoutFix_of_checkInput {registry : Registry} {i : LintInput} {r : EffectiveConfig}
    {text : Option String} {outcome : InputOutcome}
    (h : checkInput registry i r text = .ok outcome) (hrules : r.EditsInstead registry)
    (hidle : ∀ parser sheet linted,
      registry.chooseParser r.config.customSyntax i.path = .ok parser →
      sheetOf parser i text = .ok (sheet, linted) → r.Idle registry i.path sheet) :
    ∃ other, checkInput registry i r.withoutFix text = .ok other ∧
      other.result = outcome.result := by
  have hsyntax : r.withoutFix.config.customSyntax = r.config.customSyntax := rfl
  simp only [checkInput, hsyntax] at h ⊢
  cases hparser : registry.chooseParser r.config.customSyntax i.path with
  | error e =>
      rw [hparser] at h
      cases h
  | ok parser =>
      rw [hparser] at h
      simp only [bind, Except.bind] at h ⊢
      cases hsheet : sheetOf parser i text with
      | error e =>
          rw [hsheet] at h
          cases h
      | ok read =>
          obtain ⟨sheet, linted⟩ := read
          rw [hsheet] at h
          cases h
          have hnone := hidle parser sheet linted hparser hsheet
          exact ⟨_, rfl, CheckedSheet.result_withoutFix parser.print hrules hnone⟩

end Linter

/-- A registry with a rule that turns red into green, and one that objects to blue. -/
def paintRegistry : Registry :=
  (Registry.empty.addRule "no-red"
    (Rule.forbidValue { fixable := true } "red" (some "green"))).addRule "no-blue"
      (Rule.forbidValue {} "blue" none)

/-- The configuration that has both on, fixes, and reports directives that suppress nothing. -/
def paintConfig : EffectiveConfig where
  config := { Config.empty with fix := some true, reportNeedlessDisables := some (.bool true) }
  file := none
  functions := []
  rules := [("no-red", ⟨.bool true, [], .error⟩), ("no-blue", ⟨.bool true, [], .error⟩)]
  hash := ""

def paintInput (text : String) : LintInput := { code := some text }

theorem paintConfig_runs {name : String} {settings : RuleSettings} {rule : Rule}
    (h : paintConfig.Runs paintRegistry name settings rule) :
    rule = Rule.forbidValue { fixable := true } "red" (some "green") ∨
      rule = Rule.forbidValue {} "blue" none := by
  obtain ⟨hmem, -, hrule⟩ := h
  have hname : name = "no-red" ∨ name = "no-blue" := by
    simp only [paintConfig, List.mem_cons, List.not_mem_nil, or_false, Prod.mk.injEq] at hmem
    exact hmem.imp And.left And.left
  rcases hname with rfl | rfl
  · exact .inl (Option.some.inj hrule).symm
  · exact .inr (Option.some.inj hrule).symm

theorem editsInstead_paintConfig : paintConfig.EditsInstead paintRegistry := by
  intro name settings rule hruns
  rcases paintConfig_runs hruns with rfl | rfl
  · exact Rule.editsInstead_forbidValue (by decide)
  · exact Rule.editsInstead_forbidValue (by decide)

/-- A directive that suppresses nothing, beside a problem that no rule can fix. -/
def blueSheet : String := "a\x7bcolor:blue\x7d/* sheetlint-disable-line no-red */"

theorem paintConfig_idle {sheet : Sheet} (h : ∀ d ∈ sheet.declarations, d.value ≠ "red") :
    paintConfig.Idle paintRegistry none sheet := by
  intro name settings rule hruns _
  rcases paintConfig_runs hruns with rfl | rfl
  · exact Rule.check_forbidValue_eq_self h _
  · exact Rule.keeps_forbidValue_none _ _

theorem Linter.result_withoutFix_blueSheet :
    ∃ outcome other,
      checkInput paintRegistry (paintInput blueSheet) paintConfig (some blueSheet) = .ok outcome ∧
      paintConfig.fix = true ∧ outcome.output = none ∧
      outcome.result.warnings.map (fun w => (w.rule, w.line)) =
        [("no-blue", 1), ("--report-needless-disables", 1)] ∧
      checkInput paintRegistry (paintInput blueSheet) paintConfig.withoutFix (some blueSheet) =
        .ok other ∧ other.result = outcome.result := by
  have hfacts :
      (checkInput paintRegistry (paintInput blueSheet) paintConfig (some blueSheet)).toOption.map
        (fun o => (o.output, o.result.warnings.map fun w => (w.rule, w.line))) =
        some (none, [("no-blue", 1), ("--report-needless-disables", 1)]) := by
    decide +kernel
  have hvalues : (Sheet.parse none blueSheet).toOption.map
      (fun sheet => sheet.declarations.all fun d => d.value != "red") = some true := by
    decide +kernel
  cases hchecked : checkInput paintRegistry (paintInput blueSheet) paintConfig (some blueSheet) with
  | error e =>
      rw [hchecked] at hfacts
      cases hfacts
  | ok outcome =>
      rw [hchecked] at hfacts
      obtain ⟨houtput, hwarnings⟩ := Prod.ext_iff.1 (Option.some.inj hfacts)
      obtain ⟨other, hother, hsame⟩ := Linter.result_withoutFix_of_checkInput hchecked
        editsInstead_paintConfig (by
          intro parser sheet linted hparser hread
          obtain rfl : Parser.css = parser := Except.ok.inj hparser
          cases hsheet : Sheet.parse none blueSheet with
          | error e => simp [sheetOf, paintInput, Parser.css, Parser.parseCss, hsheet] at hread
          | ok read =>
              obtain ⟨rfl, -⟩ : read = sheet ∧ blueSheet = linted := by
                simpa [sheetOf, paintInput, Parser.css, Parser.parseCss, hsheet] using hread
              rw [hsheet] at hvalues
              have hall := List.all_eq_true.1 (Option.some.inj hvalues)
              exact paintConfig_idle fun d hd => bne_iff_ne.1 (hall d hd))
      exact ⟨outcome, other, rfl, rfl, houtput, hwarnings, hother, hsame⟩

/-- Two red values, the first under a directive. -/
def redSheet : String :=
  "/* sheetlint-disable-next-line no-red */\na\x7bcolor:red\x7d\nb\x7bcolor:red\x7d"

/-- The rule edits both values, and the directive keeps the text from being written back. So the
second value is neither replaced nor reported, and the directive is reported to suppress nothing. -/
theorem Linter.warnings_lost_by_fixing :
    ∃ outcome other, paintConfig.fix = true ∧ paintConfig.EditsInstead paintRegistry ∧
      checkInput paintRegistry (paintInput redSheet) paintConfig (some redSheet) = .ok outcome ∧
      checkInput paintRegistry (paintInput redSheet) paintConfig.withoutFix (some redSheet) =
        .ok other ∧
      outcome.output = none ∧
      outcome.result.warnings.map (fun w => (w.rule, w.line)) =
        [("--report-needless-disables", 1)] ∧
      other.result.warnings.map (fun w => (w.rule, w.line)) = [("no-red", 3)] := by
  have hfixing :
      (checkInput paintRegistry (paintInput redSheet) paintConfig (some redSheet)).toOption.map
        (fun o => (o.output, o.result.warnings.map fun w => (w.rule, w.line))) =
        some (none, [("--report-needless-disables", 1)]) := by
    decide +kernel
  have hplain : (checkInput paintRegistry (paintInput redSheet) paintConfig.withoutFix
      (some redSheet)).toOption.map (fun o => o.result.warnings.map fun w => (w.rule, w.line)) =
        some [("no-red", 3)] := by
    decide +kernel
  cases houtcome : checkInput paintRegistry (paintInput redSheet) paintConfig (some redSheet) with
  | error e =>
      rw [houtcome] at hfixing
      cases hfixing
  | ok outcome =>
      cases hother : checkInput paintRegistry (paintInput redSheet) paintConfig.withoutFix
          (some redSheet) with
      | error e =>
          rw [hother] at hplain
          cases hplain
      | ok other =>
          rw [houtcome] at hfixing
          rw [hother] at hplain
          obtain ⟨houtput, hwarnings⟩ := Prod.ext_iff.1 (Option.some.inj hfixing)
          exact ⟨outcome, other, rfl, editsInstead_paintConfig, rfl, rfl, houtput, hwarnings,
            Option.some.inj hplain⟩

end StyleAudit
