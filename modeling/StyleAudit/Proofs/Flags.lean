import StyleAudit.Proofs.Interleaving
import StyleAudit.Proofs.Outcomes
import StyleAudit.Proofs.Turns

/-!
The flags by which a run is seen to have failed.

The flag of a result is kept while the result grows, and is set by hand where a result stands for an
error. Either way it says whether there is an error or an invalid option, for every input, for
paths that are linted at the same time, and for the run, which adds up what its results hold.
-/

namespace StyleAudit

/--
Whether the flag of a result tells the truth: it is set exactly if a warning is an error or an
option is invalid. Nothing is put down as an error of the parser apart from the warnings.
-/
structure LintResult.Truthful (r : LintResult) : Prop where
  errored : r.errored = true ↔ (∃ w ∈ r.warnings, w.severity = .error) ∨ r.invalidOptions ≠ []
  parseErrors : r.parseErrors = []

namespace LintResult.Truthful

variable {r t : LintResult}

theorem push (h : r.Truthful) (w : Warning) : (r.push w).Truthful := by
  refine ⟨?_, h.parseErrors⟩
  rw [LintResult.push, Bool.or_eq_true, h.errored, beq_iff_eq]
  constructor
  · rintro ((⟨other, hother, herror⟩ | hinvalid) | herror)
    · exact .inl ⟨other, List.mem_append_left _ hother, herror⟩
    · exact .inr hinvalid
    · exact .inl ⟨w, List.mem_append_right _ List.mem_cons_self, herror⟩
  · rintro (⟨other, hother, herror⟩ | hinvalid)
    · rcases List.mem_append.1 hother with hbefore | hnew
      · exact .inl (.inl ⟨other, hbefore, herror⟩)
      · exact .inr (List.mem_singleton.1 hnew ▸ herror)
    · exact .inl (.inr hinvalid)

theorem invalidOption (h : r.Truthful) (text : String) : (r.invalidOption text).Truthful :=
  ⟨iff_of_true rfl (.inr (List.append_ne_nil_of_right_ne_nil _ (List.cons_ne_nil _ _))),
    h.parseErrors⟩

theorem of_growsTo (hr : r.Truthful) (h : r.GrowsTo t) : t.Truthful := by
  induction h with
  | refl => exact hr
  | push _ w ih => exact ih.push w
  | invalidOption _ text ih => exact ih.invalidOption text
  | note _ _ _ _ _ _ ih => exact ⟨ih.errored, ih.parseErrors⟩

/-- A result without findings and without the flag tells the truth. -/
theorem of_empty (herrored : r.errored = false) (hwarnings : r.warnings = [])
    (hoptions : r.invalidOptions = []) (hparse : r.parseErrors = []) : r.Truthful := by
  refine ⟨?_, hparse⟩
  rw [herrored, hwarnings, hoptions]
  simp

theorem single (source : Option String) {w : Warning} (hw : w.severity = .error) :
    (LintResult.single source w).Truthful :=
  ⟨iff_of_true rfl (.inl ⟨w, List.mem_cons_self, hw⟩), rfl⟩

end LintResult.Truthful

namespace Linter

variable {l : Linter} {s : Session}

theorem truthful_checkInput {registry : Registry} {i : LintInput} {r : EffectiveConfig}
    {text : Option String} {o : InputOutcome} (h : checkInput registry i r text = .ok o) :
    o.result.Truthful := by
  obtain ⟨parser, _, _, -, -, rfl⟩ := checkInput_eq_ok h
  exact .of_growsTo (.of_empty rfl rfl rfl rfl) (CheckedSheet.growsTo_make _ _ parser.print _ _)

/-- The result of one input tells the truth, whether it was left out, remembered or checked. -/
theorem truthful_lintInput {i : LintInput} {o : InputOutcome} (h : (l.lintInput i s).1 = .ok o) :
    o.result.Truthful := by
  rcases lintInput_eq_ok h with rfl | rfl | ⟨_, _, -, hcheck⟩
  · exact .of_empty rfl rfl rfl rfl
  · exact .of_empty rfl rfl rfl rfl
  · exact truthful_checkInput hcheck

theorem truthful_resultOfError {source : Option String} {e : LintError} {r : LintResult}
    (h : (resultOfError source e s).1 = .ok r) : r.Truthful := by
  rcases resultOfError_eq_ok h with ⟨error, rfl⟩ | rfl
  · exact .single _ rfl
  · exact .single _ rfl

end Linter

def PathStage.Truthful : PathStage → Prop
  | .waiting => True
  | .prepared p => ∀ o, p = .ok (.skipped o) → o.result.Truthful
  | .examined x => ∀ o, x = .ok o → o.result.Truthful
  | .done x => ∀ r, x = .ok r → r.Truthful

/-- A path that tells the truth does so at its next stage. -/
theorem PathStage.Truthful.advance {l : Linter} {path : String} {stage : PathStage} {s : Session}
    (h : stage.Truthful) : (l.advance path stage s).1.Truthful := by
  cases stage with
  | waiting =>
      intro o hprepare
      obtain rfl := Linter.skipped_of_prepare hprepare
      exact .of_empty rfl rfl rfl rfl
  | prepared p =>
      cases p with
      | error e => exact nofun
      | ok p =>
          intro o hexamine
          rcases Linter.examine_eq_ok hexamine with rfl | rfl | ⟨_, _, -, hcheck⟩
          · exact h o rfl
          · exact .of_empty rfl rfl rfl rfl
          · exact Linter.truthful_checkInput hcheck
  | examined x =>
      intro r hfinish
      rcases Linter.finish_eq_ok hfinish with ⟨o, rfl, rfl⟩ | ⟨e, t, hresult⟩
      · exact h o rfl
      · exact Linter.truthful_resultOfError hresult
  | done x => exact h

/-- The result of a path tells the truth. -/
theorem Linter.truthful_lintFile (l : Linter) (path : String) (s : Session) :
    (PathStage.done (l.lintFile path s).1).Truthful := by
  have hdone := congrArg Prod.fst (l.advance_advance_advance path s)
  dsimp only at hdone
  rw [← hdone]
  exact .advance (.advance (.advance trivial))

theorem Linter.truthful_lintEach (l : Linter) (paths : List String) (s : Session) :
    ∀ x ∈ (l.lintEach paths s).1, (PathStage.done x).Truthful := by
  induction paths generalizing s with
  | nil => exact fun _ h => absurd h List.not_mem_nil
  | cons path paths ih => exact List.forall_mem_cons.2 ⟨l.truthful_lintFile path s, ih _⟩

namespace Batch

variable {l : Linter} {cap : Option Nat} {b b' : Batch}

def Truthful (b : Batch) : Prop :=
  ∀ entry ∈ b.row, entry.2.Truthful

theorem Truthful.step {i : Nat} (hb : b.Truthful) (h : b.step? l cap i = some b') :
    b'.Truthful := by
  obtain ⟨before, path, stage, after, hrow, -, -, -, rfl⟩ := step?_eq_some h
  rw [Truthful, hrow, List.forall_mem_append, List.forall_mem_cons] at hb
  obtain ⟨hbefore, hstage, hafter⟩ := hb
  rw [Truthful, List.forall_mem_append, List.forall_mem_cons]
  exact ⟨hbefore, hstage.advance, hafter⟩

/-- In whichever order the steps are taken, the paths tell the truth. -/
theorem truthful_play {paths : List String} {s : Session} {schedule : List Nat}
    (h : (start paths s).play? l cap schedule = some b) : b.Truthful := by
  refine play?_keeps (fun hb hstep => hb.step hstep) (fun entry hentry => ?_) h
  obtain ⟨path, -, rfl⟩ := List.mem_map.1 hentry
  trivial

theorem Truthful.results (hb : b.Truthful) :
    ∀ x ∈ b.results, (PathStage.done x).Truthful := by
  intro x hx
  obtain ⟨⟨path, stage⟩, hentry, hresult⟩ := List.mem_filterMap.1 hx
  cases stage with
  | done own =>
      obtain rfl := Option.some.inj hresult
      exact hb _ hentry
  | _ => cases hresult

end Batch

/-- What is added up over results is a count over all their warnings. -/
theorem Summary.total_count (severity : Severity) (results : List LintResult) :
    total (fun r => r.count severity) results =
      (results.flatMap LintResult.warnings).countP fun w => w.severity == severity := by
  induction results with
  | nil => rfl
  | cons r results ih =>
      rw [total, ih, List.flatMap_cons, List.countP_append, LintResult.count,
        ← List.countP_eq_length_filter]

theorem Summary.errorCount_pos {results : List LintResult} :
    0 < total LintResult.errorCount results ↔
      ∃ r ∈ results, ∃ w ∈ r.warnings, w.severity = .error := by
  have hcount : total LintResult.errorCount results = _ := total_count .error results
  rw [hcount, List.countP_pos_iff]
  simp only [List.mem_flatMap, beq_iff_eq]
  constructor
  · rintro ⟨w, ⟨r, hr, hw⟩, herror⟩
    exact ⟨r, hr, w, hw, herror⟩
  · rintro ⟨r, hr, w, hw, herror⟩
    exact ⟨w, ⟨r, hr, hw⟩, herror⟩

/-- A result fails its run exactly if it has an error or an invalid option. -/
theorem LintResult.Truthful.failed_iff {r : LintResult} (h : r.Truthful) :
    (r.errored || !r.parseErrors.isEmpty || r.hasErrors) = true ↔
      (∃ w ∈ r.warnings, w.severity = .error) ∨ r.invalidOptions ≠ [] := by
  rw [h.parseErrors, hasErrors, Bool.or_eq_true, Bool.or_eq_true, h.errored, List.any_eq_true]
  simp only [List.isEmpty_nil, Bool.not_true, Bool.false_eq_true, or_false, beq_iff_eq]
  exact or_iff_left_of_imp .inl

/-- Whether the counts and the flags of a run tell the truth about its results. -/
structure Aggregate.Truthful (maxWarnings : Option Nat) (a : Aggregate) : Prop where
  results : ∀ r ∈ a.results, r.Truthful
  errorCount : a.errorCount =
    (a.results.flatMap LintResult.warnings).countP fun w => w.severity == .error
  warningCount : a.warningCount =
    (a.results.flatMap LintResult.warnings).countP fun w => w.severity == .warning
  exceeded : a.exceeded.isSome = true ↔
    ∃ allowed, maxWarnings = some allowed ∧ allowed < a.warningCount
  errored : a.errored = true ↔
    0 < a.errorCount ∨ (∃ r ∈ a.results, r.invalidOptions ≠ []) ∨ a.exceeded.isSome = true

/-- Results that tell the truth add up to a run that does. -/
theorem Aggregate.truthful_ofResults {results : List LintResult} (h : ∀ r ∈ results, r.Truthful)
    (maxWarnings : Option Nat) (formatter : Formatter) (cwd : String) :
    (ofResults results maxWarnings formatter cwd).Truthful maxWarnings where
  results := h
  errorCount := Summary.total_count .error results
  warningCount := Summary.total_count .warning results
  exceeded := by
    unfold ofResults Summary.ofResults
    dsimp only
    cases maxWarnings with
    | none => simp
    | some allowed =>
        dsimp only
        split
        case isTrue hless => exact iff_of_true rfl ⟨allowed, rfl, hless⟩
        case isFalse hless =>
            refine iff_of_false Bool.false_ne_true ?_
            rintro ⟨own, hown, hown_less⟩
            exact hless (Option.some.inj hown ▸ hown_less)
  errored := by
    have hpositive : 0 < (ofResults results maxWarnings formatter cwd).errorCount ↔ _ :=
      Summary.errorCount_pos
    rw [hpositive]
    change ((results.any fun r => _) || _) = true ↔ _
    rw [Bool.or_eq_true, List.any_eq_true]
    constructor
    · rintro (⟨r, hr, hflag⟩ | hexceeded)
      · rcases (h r hr).failed_iff.1 hflag with herror | hinvalid
        · exact .inl ⟨r, hr, herror⟩
        · exact .inr (.inl ⟨r, hr, hinvalid⟩)
      · exact .inr (.inr hexceeded)
    · rintro (⟨r, hr, herror⟩ | ⟨r, hr, hinvalid⟩ | hexceeded)
      · exact .inl ⟨r, hr, (h r hr).failed_iff.2 (.inl herror)⟩
      · exact .inl ⟨r, hr, (h r hr).failed_iff.2 (.inr hinvalid)⟩
      · exact .inr hexceeded

namespace Linter

variable {l : Linter} {s : Session} {a : Aggregate}

/-- Paths whose results tell the truth add up to a run that does. -/
theorem truthful_collect {xs : List (Except LintError LintResult)} {results : List LintResult}
    (hxs : ∀ x ∈ xs, (PathStage.done x).Truthful) (h : collect xs = .ok results) :
    (l.aggregate results).Truthful l.options.maxWarnings := by
  refine Aggregate.truthful_ofResults (fun r hr => ?_) _ _ _
  rw [collect_eq_ok.1 h, List.forall_mem_map] at hxs
  exact hxs r hr r rfl

theorem truthful_lintText {code : String} (h : (l.lintText code s).1 = .ok a) :
    a.Truthful l.options.maxWarnings := by
  obtain ⟨results, given, rfl, hresults⟩ := lintText_eq_ok h
  have htruthful : ∀ r ∈ results, r.Truthful := by
    rcases hresults with rfl | ⟨i, o, hinput, rfl⟩ | ⟨source, e, t, r, hresult, rfl⟩
    · exact fun _ h => absurd h List.not_mem_nil
    · exact List.forall_mem_singleton.2 (truthful_lintInput hinput)
    · exact List.forall_mem_singleton.2 (truthful_resultOfError hresult)
  have hall : (l.aggregate results).Truthful l.options.maxWarnings :=
    Aggregate.truthful_ofResults htruthful _ _ _
  exact ⟨hall.results, hall.errorCount, hall.warningCount, hall.exceeded, hall.errored⟩

theorem truthful_lint (h : (l.lint s).1 = .ok a) : a.Truthful l.options.maxWarnings := by
  cases hcode : l.options.code with
  | none =>
      cases hfiles : l.options.files with
      | none =>
          rw [lint, hfiles, hcode] at h
          cases h
      | some files =>
          obtain ⟨m, notices, ⟨e, heq⟩ | ⟨results, hresults, heq⟩⟩ :=
            l.lint_cases (by rw [hfiles]; rfl) hcode s
          · rw [heq] at h
            cases h
          · rw [heq] at h
            obtain rfl := Except.ok.inj h
            exact truthful_collect (l.truthful_lintEach _ _) (collect_eq_ok.2 hresults)
  | some code =>
      cases hfiles : l.options.files with
      | none =>
          rw [lint, hfiles, hcode] at h
          exact truthful_lintText h
      | some files =>
          rw [lint, hfiles, hcode] at h
          cases h

/--
The flags of a run tell the truth. The result of every input is flagged exactly if it has an error
or an invalid option. The run counts the errors and the warnings of all its results, says that there
are too many warnings exactly if there are more than allowed, and is flagged exactly if it has an
error, an invalid option or too many warnings; also if its paths are linted at the same time.
-/
theorem flags_truthful (l : Linter) (s : Session) :
    (∀ i o, (l.lintInput i s).1 = .ok o → o.result.Truthful) ∧
    (∀ a, (l.lint s).1 = .ok a → a.Truthful l.options.maxWarnings) ∧
    ∀ paths cap schedule b results, (Batch.start paths s).play? l cap schedule = some b →
      collect b.results = .ok results →
      (l.aggregate results).Truthful l.options.maxWarnings :=
  ⟨fun _ _ h => truthful_lintInput h, fun _ h => truthful_lint h,
    fun _ _ _ _ _ hplay h => truthful_collect (Batch.truthful_play hplay).results h⟩

end Linter

/-- Of a red sheet is only warned, a blue one is wrong and one ends too early. The configuration has
an option that no report knows. -/
def alarmFiles : FileSystem :=
  ⟨[(["w"], .directory),
    (["w", ".sheetlintrc"], .file (.text ("\x7b\"rules\":\x7b\"no-red\":[true,\x7b\"severity\":" ++
      "\"warning\"\x7d],\"no-blue\":true\x7d,\"reportNeedlessDisables\":\"yes\"\x7d")) 0),
    (["w", "blue.css"], .file (.text "a \x7bcolor: blue\x7d") 0),
    (["w", "red.css"], .file (.text "a \x7bcolor: red\x7d") 0),
    (["w", "torn.css"], .file (.text "a \x7b") 0)], ["w"], 0, []⟩

def alarmOptions : Options :=
  { files := some ["*.css"], maxWarnings := some 0 }

/-- A sheet without errors is flagged for its option; two errors and one warning fail the run. -/
theorem Linter.flags_truthful_alarm :
    ∃ l s o a b results, make alarmOptions paintRegistry alarmFiles = .ok (l, s) ∧
      (l.lintInput (.ofFile "/w/red.css" false) s).1 = .ok o ∧ o.result.Truthful ∧
      o.result.warnings.map Warning.severity = [.warning] ∧ o.result.errored = true ∧
      (l.lint s).1 = .ok a ∧ a.Truthful (some 0) ∧ a.errored = true ∧ a.errorCount = 2 ∧
      a.warningCount = 1 ∧ a.exceeded = some ⟨0, 1⟩ ∧
      (Batch.start ["/w/red.css"] s).play? l none [0, 0, 0] = some b ∧
      collect b.results = .ok results ∧ (l.aggregate results).Truthful (some 0) := by
  have hfacts : (make alarmOptions paintRegistry alarmFiles).toOption.any
      (fun (l, s) => decide (
        ((l.lintInput (.ofFile "/w/red.css" false) s).1.toOption.any fun o =>
          decide (o.result.warnings.map Warning.severity = [.warning] ∧
            o.result.errored = true)) = true ∧
        ((l.lint s).1.toOption.any fun a => decide (a.errored = true ∧ a.errorCount = 2 ∧
          a.warningCount = 1 ∧ a.exceeded = some ⟨0, 1⟩)) = true ∧
        (((Batch.start ["/w/red.css"] s).play? l none [0, 0, 0]).any fun b =>
          (collect b.results).toOption.isSome) = true)) = true := by
    decide +kernel
  obtain ⟨⟨l, s⟩, hmade, hfacts⟩ := (Option.any_eq_true _ _).1 hfacts
  obtain ⟨hinput, hrun, hplay⟩ := of_decide_eq_true hfacts
  obtain ⟨o, ho, hseverities⟩ := (Option.any_eq_true _ _).1 hinput
  obtain ⟨a, ha, hcounts⟩ := (Option.any_eq_true _ _).1 hrun
  obtain ⟨b, hb, hcollect⟩ := (Option.any_eq_true _ _).1 hplay
  obtain ⟨results, hresults⟩ := exists_ok_of_isSome hcollect
  obtain ⟨hwarned, hflag⟩ := of_decide_eq_true hseverities
  obtain ⟨hfailed, herrors, hwarnings, hexceeded⟩ := of_decide_eq_true hcounts
  have hmade := eq_ok_of_toOption hmade
  have ho := eq_ok_of_toOption ho
  have ha := eq_ok_of_toOption ha
  obtain ⟨hoptions, -⟩ := make_spec hmade
  have hallowed : l.options.maxWarnings = some 0 := by rw [hoptions]; rfl
  obtain ⟨hinputs, hruns, hbatches⟩ := flags_truthful l s
  rw [hallowed] at hruns hbatches
  exact ⟨l, s, o, a, b, results, hmade, ho, hinputs _ o ho, hwarned, hflag, ha, hruns a ha, hfailed,
    herrors, hwarnings, hexceeded, hb, hresults, hbatches _ _ _ b results hb hresults⟩

end StyleAudit
