import StyleAudit.Lint.Check

/-!
How the result of a check is built.

A result starts empty. Warnings are pushed and options found invalid one at a time, and what is
known of the rules and of the ranges is noted beside them. Nothing else happens to a result on the
way, so what these steps keep holds of every check.
-/

namespace StyleAudit

namespace LintResult

/-- The results that a result can grow to in the course of a check. -/
inductive GrowsTo (r : LintResult) : LintResult → Prop
  | refl : GrowsTo r r
  | push {t : LintResult} (h : GrowsTo r t) (w : Warning) : GrowsTo r (t.push w)
  | invalidOption {t : LintResult} (h : GrowsTo r t) (text : String) :
      GrowsTo r (t.invalidOption text)
  | note {t : LintResult} (h : GrowsTo r t) (deprecations : List Deprecation)
      (severities : Table Severity) (messages : Table String) (metadata : Table RuleMeta)
      (ranges : List DisabledRange) :
      GrowsTo r { t with
        deprecations := deprecations, severities := severities, messages := messages,
        metadata := metadata, ranges := ranges }

namespace GrowsTo

variable {r t : LintResult}

theorem pushAll (h : r.GrowsTo t) (ws : List Warning) : r.GrowsTo (t.pushAll ws) := by
  rw [LintResult.pushAll]
  induction ws generalizing t with
  | nil => exact h
  | cons w ws ih => exact ih (h.push w)

theorem invalidOptionsAll (h : r.GrowsTo t) (texts : List String) :
    r.GrowsTo (t.invalidOptionsAll texts) := by
  rw [LintResult.invalidOptionsAll]
  induction texts generalizing t with
  | nil => exact h
  | cons text texts ih => exact ih (h.invalidOption text)

theorem record (h : r.GrowsTo t) (name : String) (settings : RuleSettings) (info : RuleMeta)
    (invalidOptions : List String) :
    r.GrowsTo (RuleRun.record t name settings info invalidOptions) :=
  ((h.note _ t.severities t.messages t.metadata t.ranges).invalidOptionsAll invalidOptions).note
    _ _ _ _ _

theorem addTo (h : r.GrowsTo t) (report : DisableReport) (c : Config) (isEnabled : String → Bool)
    (ranges : List (DisabledRange × Bool)) : r.GrowsTo (report.addTo c isEnabled ranges t) := by
  rw [DisableReport.addTo]
  split
  · exact (h.invalidOptionsAll _).pushAll _
  · exact h.invalidOptionsAll _

theorem addAll (h : r.GrowsTo t) (c : Config) (isEnabled : String → Bool)
    (ranges : List DisabledRange) (used : List Bool) :
    r.GrowsTo (DisableReport.addAll c isEnabled ranges used t) := by
  rw [DisableReport.addAll]
  split
  · exact (h.addTo _ _ _ _).addTo _ _ _ _
  · exact ((h.addTo _ _ _ _).addTo _ _ _ _).addTo _ _ _ _

end GrowsTo

end LintResult

namespace RuleRun

variable {r : EffectiveConfig} {registry : Registry} {file : Option String}

/-- What every rule keeps, all rules together keep. -/
theorem runAll_keeps {sheet : Sheet} {P : RuleRun → Prop} (hstart : P (start sheet file))
    (hstep : ∀ run entry, entry ∈ r.rules → P run → P (step r registry file run entry)) :
    P (runAll r registry file sheet) :=
  List.foldlRecOn r.rules (step r registry file) hstart fun run hrun entry hentry =>
    hstep run entry hentry hrun

theorem growsTo_step {t : LintResult} {run : RuleRun} (h : t.GrowsTo run.result)
    (entry : String × RuleSettings) : t.GrowsTo (step r registry file run entry).result := by
  rw [step]
  split
  case isTrue => exact h
  case isFalse =>
      split
      case h_1 => exact h
      case h_2 => exact h.record _ _ _ _

theorem growsTo_runAll (r : EffectiveConfig) (registry : Registry) (file : Option String)
    (sheet : Sheet) : (LintResult.ofSource file).GrowsTo (runAll r registry file sheet).result :=
  runAll_keeps (P := fun run => (LintResult.ofSource file).GrowsTo run.result) .refl
    fun _ entry _ h => growsTo_step h entry

end RuleRun

/-- The result of a check has grown from an empty one. -/
theorem CheckedSheet.growsTo_make (r : EffectiveConfig) (registry : Registry)
    (print : Sheet → String) (file : Option String) (sheet : Sheet) :
    (LintResult.ofSource file).GrowsTo (make r registry print file sheet).result :=
  (((RuleRun.growsTo_runAll r registry file sheet).pushAll _).addAll _ _ _ _).note _ _ _ _ _

section Warnings

namespace LintResult

/-- A result with more warnings and more invalid options. -/
def tell (r : LintResult) (warnings : List Warning) (faults : List String) : LintResult :=
  { r with
    warnings := r.warnings ++ warnings
    invalidOptions := r.invalidOptions ++ faults
    errored := r.errored || !faults.isEmpty || warnings.any fun w => w.severity == .error }

@[simp]
theorem tell_nil (r : LintResult) : r.tell [] [] = r := by
  simp [tell]

theorem tell_tell (r : LintResult) (ws ws' : List Warning) (faults faults' : List String) :
    (r.tell ws faults).tell ws' faults' = r.tell (ws ++ ws') (faults ++ faults') := by
  have hempty : (faults ++ faults').isEmpty = (faults.isEmpty && faults'.isEmpty) := by
    cases faults <;> rfl
  simp only [tell, List.append_assoc, hempty, List.any_append, Bool.not_and]
  ac_rfl

theorem pushAll_eq (r : LintResult) (ws : List Warning) : r.pushAll ws = r.tell ws [] := by
  rw [pushAll]
  induction ws generalizing r with
  | nil => exact r.tell_nil.symm
  | cons w ws ih =>
      have hpush : r.push w = r.tell [w] [] := by simp [push, tell]
      rw [List.foldl_cons, ih, hpush, tell_tell]
      rfl

theorem invalidOptionsAll_eq (r : LintResult) (faults : List String) :
    r.invalidOptionsAll faults = r.tell [] faults := by
  rw [invalidOptionsAll]
  induction faults generalizing r with
  | nil => exact r.tell_nil.symm
  | cons fault faults ih =>
      have hfault : r.invalidOption fault = r.tell [] [fault] := by simp [invalidOption, tell]
      rw [List.foldl_cons, ih, hfault, tell_tell]
      rfl

@[simp]
theorem warnings_pushAll (r : LintResult) (ws : List Warning) :
    (r.pushAll ws).warnings = r.warnings ++ ws := by
  rw [pushAll_eq]
  rfl

@[simp]
theorem warnings_invalidOptionsAll (r : LintResult) (texts : List String) :
    (r.invalidOptionsAll texts).warnings = r.warnings := by
  rw [invalidOptionsAll_eq]
  exact List.append_nil _

end LintResult

namespace DisableReport

def reported (report : DisableReport) (c : Config) (isEnabled : String → Bool)
    (ranges : List (DisabledRange × Bool)) : List Warning :=
  match (DisableSettings.validate c report).1 with
  | some settings => report.warnings settings isEnabled ranges
  | none => []

def reportedAll (c : Config) (isEnabled : String → Bool) (ranges : List DisabledRange)
    (used : List Bool) : List Warning :=
  let pairs := ranges.zip used
  (if c.ignoreDisables.getD false then [] else needless.reported c isEnabled pairs) ++
    invalidScope.reported c isEnabled pairs ++ descriptionless.reported c isEnabled pairs

/-- A report tells its warnings and what is wrong with its option, and changes nothing else. -/
theorem addTo_eq (report : DisableReport) (c : Config) (isEnabled : String → Bool)
    (ranges : List (DisabledRange × Bool)) (r : LintResult) :
    report.addTo c isEnabled ranges r =
      r.tell (report.reported c isEnabled ranges) (DisableSettings.validate c report).2 := by
  rw [addTo, reported]
  rcases DisableSettings.validate c report with ⟨settings, faults⟩
  cases settings with
  | none => exact r.invalidOptionsAll_eq faults
  | some settings =>
      dsimp only
      rw [LintResult.invalidOptionsAll_eq, LintResult.pushAll_eq, LintResult.tell_tell,
        List.nil_append, List.append_nil]

theorem warnings_addTo (report : DisableReport) (c : Config) (isEnabled : String → Bool)
    (ranges : List (DisabledRange × Bool)) (r : LintResult) :
    (report.addTo c isEnabled ranges r).warnings =
      r.warnings ++ report.reported c isEnabled ranges := by
  rw [addTo_eq]
  rfl

theorem warnings_addAll (c : Config) (isEnabled : String → Bool) (ranges : List DisabledRange)
    (used : List Bool) (r : LintResult) :
    (addAll c isEnabled ranges used r).warnings =
      r.warnings ++ reportedAll c isEnabled ranges used := by
  rw [addAll, reportedAll, warnings_addTo, warnings_addTo]
  split
  case isTrue => rw [List.nil_append, List.append_assoc]
  case isFalse => rw [warnings_addTo, List.append_assoc, List.append_assoc, List.append_assoc]

end DisableReport

/-- The warnings of the rules wait beside the result until the directives are heeded. -/
theorem RuleRun.warnings_runAll (r : EffectiveConfig) (registry : Registry) (file : Option String)
    (sheet : Sheet) : (runAll r registry file sheet).result.warnings = [] := by
  refine runAll_keeps (P := fun run => run.result.warnings = []) rfl fun run entry _ h => ?_
  rw [step]
  split
  case isTrue => exact h
  case isFalse =>
      split
      case h_1 => exact h
      case h_2 => simpa [runRule, record] using h

namespace CheckedSheet

/-- What the rules found on a sheet, less what its directives suppress. -/
def kept (r : EffectiveConfig) (registry : Registry) (file : Option String) (sheet : Sheet) :
    List Warning :=
  let found := (RuleRun.runAll r registry file sheet).warnings
  if r.ignoreDisables then found else DisabledRange.keep (DisabledRange.ofSheet sheet) found

/-- What the reports have to say about the directives of a sheet. -/
def reported (r : EffectiveConfig) (registry : Registry) (file : Option String)
    (sheet : Sheet) : List Warning :=
  let ranges := DisabledRange.ofSheet sheet
  let found := (RuleRun.runAll r registry file sheet).warnings
  DisableReport.reportedAll r.config (fun rule => r.rules.contains rule) ranges
    (if r.ignoreDisables then ranges.map fun _ => false else DisabledRange.used ranges found)

/-- A check tells what the rules found and what the reports have to say, and nothing else. -/
theorem warnings_make (r : EffectiveConfig) (registry : Registry) (print : Sheet → String)
    (file : Option String) (sheet : Sheet) :
    (make r registry print file sheet).result.warnings =
      kept r registry file sheet ++ reported r registry file sheet := by
  have hkept : ((RuleRun.runAll r registry file sheet).result.pushAll
      (kept r registry file sheet)).warnings = kept r registry file sheet := by
    rw [LintResult.warnings_pushAll, RuleRun.warnings_runAll, List.nil_append]
  rw [← hkept]
  exact DisableReport.warnings_addAll _ _ _ _ _

end CheckedSheet

end Warnings

end StyleAudit
