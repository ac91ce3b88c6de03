import StyleAudit.Proofs.Fixing
import StyleAudit.Proofs.Outcomes
import StyleAudit.Proofs.Transparency

/-!
What a configuration that wants errors only keeps back.

Rules that do not give errors are not run, so no rule has a warning in the result. The reports on
directive comments are not kept back: each speaks with the severity that its option or the default
gives it.
-/

namespace StyleAudit

/-- Whether findings have the severity under which their rule runs. -/
def Findings.ToldUnder (ctx : RuleContext) (f : Findings) : Prop :=
  ∀ w ∈ f.warnings, w.severity = ctx.severity

namespace Findings.ToldUnder

variable {ctx : RuleContext} {f : Findings}

theorem none : Findings.none.ToldUnder ctx :=
  fun _ h => absurd h List.not_mem_nil

theorem invalidOption (h : f.ToldUnder ctx) (text : String) :
    (f.invalidOption text).ToldUnder ctx :=
  h

theorem report (h : f.ToldUnder ctx) (text : String) (source : Option SourceRange) :
    (f.report ctx text source).ToldUnder ctx :=
  List.forall_mem_append.2 ⟨h, List.forall_mem_singleton.2 rfl⟩

/-- Reporting one thing after the other gives all of them the same severity. -/
theorem foldl {α : Type} (h : f.ToldUnder ctx) (found : List α) (text : α → String)
    (source : α → Option SourceRange) :
    (found.foldl (fun f a => f.report ctx (text a) (source a)) f).ToldUnder ctx :=
  List.foldlRecOn found _ h fun _ hf a _ => hf.report (text a) (source a)

end Findings.ToldUnder

namespace Rule

/-- Whether a rule gives what it finds the severity under which it runs. -/
def ReportsAsTold (rule : Rule) : Prop :=
  ∀ ctx sheet, (rule.check ctx sheet).2.ToldUnder ctx

theorem reportsAsTold_forbidValue (info : RuleMeta) (value : String)
    (replacement : Option String) : (forbidValue info value replacement).ReportsAsTold := by
  intro ctx sheet
  unfold forbidValue
  dsimp only
  split
  case h_1 => exact .none
  case h_2 => exact .foldl .none _ _ _

theorem toldUnder_reportEmpty {ctx : RuleContext} {f : Findings} (h : f.ToldUnder ctx)
    (sheet : Sheet) : (reportEmpty ctx sheet f).ToldUnder ctx :=
  h.foldl _ _ _

/-- Options that are found invalid are no warnings. -/
theorem reportsAsTold_strictEmpty (info : RuleMeta) : (strictEmpty info).ReportsAsTold := by
  intro ctx sheet
  have hchecked {f : Findings} (h : f.ToldUnder ctx) :
      Findings.ToldUnder ctx (if f.hasInvalidOptions then f else reportEmpty ctx sheet f) := by
    split
    · exact h
    · exact toldUnder_reportEmpty h sheet
  refine hchecked ?_
  split
  case h_1 =>
      refine .invalidOption ?_ _
      split
      · exact .none
      · exact .invalidOption .none _
  case h_2 =>
      split
      · exact .none
      · exact .invalidOption .none _

theorem reportsAsTold_appendComment (info : RuleMeta) : (appendComment info).ReportsAsTold := by
  intro ctx sheet
  unfold appendComment
  dsimp only
  split
  case isTrue => exact .none
  case isFalse => exact .report .none _ _

/-- All rules of the stock report as they are told. -/
theorem reportsAsTold_ofName (check : String) (info : RuleMeta)
    (value replacement : Option String) : (ofName check info value replacement).ReportsAsTold := by
  unfold ofName
  split
  case h_1 => exact reportsAsTold_forbidValue info _ _
  case h_2 => exact fun _ sheet => toldUnder_reportEmpty .none sheet
  case h_3 => exact fun _ sheet => toldUnder_reportEmpty .none sheet
  case h_4 => exact reportsAsTold_strictEmpty info
  case h_5 => exact fun _ _ => .report .none _ _
  case h_6 => exact fun _ _ => .foldl .none _ _ _
  case h_7 => exact fun _ _ => .foldl .none _ _ _
  case h_8 => exact reportsAsTold_appendComment info
  case h_9 => exact fun _ _ => .foldl .none _ _ _
  case h_10 => exact fun _ _ => .none

end Rule

namespace DisableReport

variable {c : Config} {isEnabled : String → Bool} {w : Warning}

/-- A report warns of the ranges that it objects to and that its settings are about. -/
theorem mem_reported {report : DisableReport} {ranges : List (DisabledRange × Bool)} :
    w ∈ report.reported c isEnabled ranges ↔
      ∃ settings range used, (DisableSettings.validate c report).1 = some settings ∧
        (range, used) ∈ ranges ∧ report.objects isEnabled range used = true ∧
        settings.appliesTo range.ruleName = true ∧ w = report.warning settings range := by
  rw [reported]
  split
  case h_1 settings hsettings =>
      simp only [warnings, List.mem_map, List.mem_filter, Bool.and_eq_true]
      constructor
      · rintro ⟨⟨range, used⟩, ⟨hrange, hobjects, happlies⟩, rfl⟩
        exact ⟨settings, range, used, hsettings, hrange, hobjects, happlies, rfl⟩
      · rintro ⟨own, range, used, hown, hrange, hobjects, happlies, rfl⟩
        obtain rfl := Option.some.inj (hsettings.symm.trans hown)
        exact ⟨(range, used), ⟨hrange, hobjects, happlies⟩, rfl⟩
  case h_2 hnone =>
      refine iff_of_false List.not_mem_nil ?_
      rintro ⟨settings, -, -, hsettings, -⟩
      cases hnone.symm.trans hsettings

/-- What all reports say is what the single reports say. -/
theorem exists_of_mem_reportedAll {ranges : List DisabledRange} {used : List Bool}
    (h : w ∈ reportedAll c isEnabled ranges used) :
    ∃ report : DisableReport, w ∈ report.reported c isEnabled (ranges.zip used) := by
  rw [reportedAll, List.mem_append, List.mem_append] at h
  rcases h with (hneedless | hscope) | hdescription
  · split at hneedless
    case isTrue => exact absurd hneedless List.not_mem_nil
    case isFalse => exact ⟨.needless, hneedless⟩
  · exact ⟨.invalidScope, hscope⟩
  · exact ⟨.descriptionless, hdescription⟩

end DisableReport

section Quiet

variable {r : EffectiveConfig} {registry : Registry} {file : Option String} {sheet : Sheet}

/-- Where only errors are wanted, each rule that runs gives errors. -/
theorem EffectiveConfig.Runs.severity {name : String} {settings : RuleSettings} {rule : Rule}
    (h : r.Runs registry name settings rule) (hquiet : r.quiet = true) :
    settings.severity = .error := by
  have hskip := h.2.1
  rw [hquiet, Bool.true_and] at hskip
  simpa using hskip

/-- Where only errors are wanted, the rules find nothing else. -/
theorem RuleRun.errors_runAll (hquiet : r.quiet = true)
    (hrules : ∀ name settings rule, r.Runs registry name settings rule → rule.ReportsAsTold) :
    ∀ w ∈ (runAll r registry file sheet).warnings, w.severity = .error := by
  refine runAll_keeps (P := fun run => ∀ w ∈ run.warnings, w.severity = .error)
    (fun _ h => absurd h List.not_mem_nil) fun run entry hentry hrun => ?_
  obtain ⟨name, settings⟩ := entry
  rw [step]
  split
  case isTrue => exact hrun
  case isFalse hskip =>
      split
      case h_1 => exact List.forall_mem_append.2 ⟨hrun, List.forall_mem_singleton.2 rfl⟩
      case h_2 rule hrule =>
          have hruns : r.Runs registry name settings rule :=
            ⟨hentry, Bool.eq_false_iff.2 hskip, hrule⟩
          refine List.forall_mem_append.2 ⟨hrun, fun w hw => ?_⟩
          exact (hrules name settings rule hruns _ _ w hw).trans (hruns.severity hquiet)

/-- Where only errors are wanted, what is no error in the result of a check is of a report. -/
theorem CheckedSheet.reported_of_warning (hquiet : r.quiet = true)
    (hrules : ∀ name settings rule, r.Runs registry name settings rule → rule.ReportsAsTold)
    {print : Sheet → String} {w : Warning}
    (hw : w ∈ (make r registry print file sheet).result.warnings)
    (hseverity : w.severity ≠ .error) : w ∈ reported r registry file sheet := by
  rw [warnings_make, List.mem_append] at hw
  rcases hw with hkept | hreported
  · have hfound : w ∈ (RuleRun.runAll r registry file sheet).warnings := by
      rw [kept] at hkept
      split at hkept
      case isTrue => exact hkept
      case isFalse => exact (List.mem_filter.1 hkept).1
    exact absurd (RuleRun.errors_runAll hquiet hrules w hfound) hseverity
  · exact hreported

end Quiet

namespace Linter

variable {l : Linter} {i : LintInput} {s : Session} {r : EffectiveConfig} {o : InputOutcome}

/--
Where the configuration of an input wants errors only, the result has errors only, but for the
reports on directives: what is no error is the warning of a report about a disabled range, and has
the severity that the settings of that report give it.
-/
theorem quiet_spec (hconfig : (l.configFor i.path s).1 = .ok r) (hquiet : r.quiet = true)
    (hrules : ∀ name settings rule, r.Runs l.registry name settings rule → rule.ReportsAsTold)
    (h : (l.lintInput i s).1 = .ok o) :
    ∀ w ∈ o.result.warnings, w.severity = .error ∨
      ∃ (report : DisableReport) (settings : DisableSettings) (range : DisabledRange),
        (DisableSettings.validate r.config report).1 = some settings ∧
        settings.severity = .warning ∧ range ∈ o.result.ranges ∧
        w = report.warning settings range := by
  intro w hw
  rcases lintInput_eq_ok h with rfl | rfl | ⟨own, text, hown, hcheck⟩
  · exact absurd hw List.not_mem_nil
  · exact absurd hw List.not_mem_nil
  · obtain rfl := Except.ok.inj (hconfig.symm.trans hown)
    obtain ⟨parser, sheet, _, -, -, rfl⟩ := checkInput_eq_ok hcheck
    rcases hseverity : w.severity with - | -
    · exact .inl rfl
    · have hmade : w ∈ (CheckedSheet.make r l.registry parser.print i.path sheet).result.warnings :=
        hw
      have hreported := CheckedSheet.reported_of_warning hquiet hrules hmade (by simp [hseverity])
      obtain ⟨report, hreport⟩ := DisableReport.exists_of_mem_reportedAll hreported
      obtain ⟨settings, range, used, hsettings, hrange, -, -, rfl⟩ :=
        DisableReport.mem_reported.1 hreport
      exact .inr ⟨report, settings, range, hsettings, hseverity, (List.of_mem_zip hrange).1, rfl⟩

end Linter

/-- A configuration that wants errors only, and a warning for each directive without a use. -/
def hushFiles : FileSystem :=
  ⟨[(["w"], .directory),
    (["w", ".sheetlintrc"], .file (.text
      ("\x7b\"rules\":\x7b\"no-red\":[true,\x7b\"severity\":\"warning\"\x7d]," ++
        "\"no-blue\":true\x7d,\"quiet\":true," ++
        "\"reportNeedlessDisables\":[true,\x7b\"severity\":\"warning\"\x7d]\x7d")) 0)],
    ["w"], 0, []⟩

/-- A directive without a use, above a declaration for each of the two rules. -/
def hushInput : LintInput :=
  paintInput "/* sheetlint-disable-line no-red */\na \x7bcolor: red; color: blue\x7d"

theorem reportsAsTold_paintRegistry {r : EffectiveConfig} (h : r.functions = []) {name : String}
    {settings : RuleSettings} {rule : Rule} (hruns : r.Runs paintRegistry name settings rule) :
    rule.ReportsAsTold := by
  obtain ⟨-, -, hrule⟩ := hruns
  rw [EffectiveConfig.rule?, h] at hrule
  rcases List.mem_pair.1 (Table.mem_of_find? (t := paintRegistry.rules) hrule) with heq | heq
  · obtain ⟨-, rfl⟩ := Prod.mk.inj heq
    exact Rule.reportsAsTold_forbidValue _ _ _
  · obtain ⟨-, rfl⟩ := Prod.mk.inj heq
    exact Rule.reportsAsTold_forbidValue _ _ _

namespace Linter

/-- The rule that warns is kept back, and the report that warns is not. -/
theorem exists_hush : ∃ l s r o, make {} paintRegistry hushFiles = .ok (l, s) ∧
    (l.configFor hushInput.path s).1 = .ok r ∧ r.quiet = true ∧
    (∀ name settings rule, r.Runs l.registry name settings rule → rule.ReportsAsTold) ∧
    (l.lintInput hushInput s).1 = .ok o ∧
    o.result.warnings.map (fun w => (w.rule, w.severity)) =
      [("no-blue", .error), ("--report-needless-disables", .warning)] := by
  have hfacts : (make {} paintRegistry hushFiles).toOption.any (fun (l, s) => decide (
      ((l.configFor hushInput.path s).1.toOption.any fun r =>
        decide (r.quiet = true ∧ r.functions.isEmpty = true)) = true ∧
      ((l.lintInput hushInput s).1.toOption.any fun o =>
        decide (o.result.warnings.map (fun w => (w.rule, w.severity)) =
          [("no-blue", .error), ("--report-needless-disables", .warning)])) = true)) = true := by
    decide +kernel
  obtain ⟨⟨l, s⟩, hmade, hfacts⟩ := (Option.any_eq_true _ _).1 hfacts
  obtain ⟨hconfig, hinput⟩ := of_decide_eq_true hfacts
  obtain ⟨r, hr, hquiet⟩ := (Option.any_eq_true _ _).1 hconfig
  obtain ⟨o, ho, hwarnings⟩ := (Option.any_eq_true _ _).1 hinput
  obtain ⟨hquiet, hplain⟩ := of_decide_eq_true hquiet
  have hmade := eq_ok_of_toOption hmade
  obtain ⟨-, hregistry, -⟩ := make_spec hmade
  refine ⟨l, s, r, o, hmade, eq_ok_of_toOption hr, hquiet, fun name settings rule hruns => ?_,
    eq_ok_of_toOption ho, of_decide_eq_true hwarnings⟩
  rw [hregistry] at hruns
  exact reportsAsTold_paintRegistry (List.isEmpty_iff.1 hplain) hruns

theorem quiet_spec_hush : ∃ l s r o, make {} paintRegistry hushFiles = .ok (l, s) ∧
    (l.configFor hushInput.path s).1 = .ok r ∧ r.quiet = true ∧
    (∀ name settings rule, r.Runs l.registry name settings rule → rule.ReportsAsTold) ∧
    (l.lintInput hushInput s).1 = .ok o ∧ o.result.warnings ≠ [] ∧
    ∀ w ∈ o.result.warnings, w.severity = .error ∨
      ∃ (report : DisableReport) (settings : DisableSettings) (range : DisabledRange),
        (DisableSettings.validate r.config report).1 = some settings ∧
        settings.severity = .warning ∧ range ∈ o.result.ranges ∧
        w = report.warning settings range := by
  obtain ⟨l, s, r, o, hmade, hconfig, hquiet, hrules, hinput, hwarnings⟩ := exists_hush
  refine ⟨l, s, r, o, hmade, hconfig, hquiet, hrules, hinput, fun hnone => ?_,
    quiet_spec hconfig hquiet hrules hinput⟩
  rw [hnone] at hwarnings
  cases hwarnings

/-- Though only errors are wanted, a report that is told to warn does warn. -/
theorem exists_warning_of_quiet : ∃ l s r o w, make {} paintRegistry hushFiles = .ok (l, s) ∧
    (l.configFor hushInput.path s).1 = .ok r ∧ r.quiet = true ∧
    (∀ name settings rule, r.Runs l.registry name settings rule → rule.ReportsAsTold) ∧
    (l.lintInput hushInput s).1 = .ok o ∧ w ∈ o.result.warnings ∧ w.severity ≠ .error := by
  obtain ⟨l, s, r, o, hmade, hconfig, hquiet, hrules, hinput, hwarnings⟩ := exists_hush
  obtain ⟨w, hw, heq⟩ := List.mem_map.1
    (hwarnings.symm ▸ List.mem_cons_of_mem _ List.mem_cons_self :
      ("--report-needless-disables", Severity.warning) ∈
        o.result.warnings.map fun w => (w.rule, w.severity))
  obtain ⟨-, hseverity⟩ := Prod.mk.inj heq
  exact ⟨l, s, r, o, w, hmade, hconfig, hquiet, hrules, hinput, hw, by simp [hseverity]⟩

end Linter

end StyleAudit
