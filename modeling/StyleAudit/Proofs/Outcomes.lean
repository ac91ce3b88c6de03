import StyleAudit.Lint.Run
import StyleAudit.Proofs.Building

/-!
What one input can come to.

Where an input does not end in an error, it was left out, or the cache answered for it, or it was
checked under the configuration in force for it.
-/

namespace StyleAudit

namespace Linter

variable {l : Linter} {i : LintInput} {s : Session} {p : PreparedInput} {o : InputOutcome}

/-- A configuration leaves an input out, or its text is found. -/
theorem fetch_eq_ok {fs : FileSystem} {r : EffectiveConfig} (h : fetch fs i r = .ok p) :
    p = .skipped (.skipped (LintResult.skipped i.path) i.sheet) ∨
      ∃ text, p = .ready r text ∧ textOf fs i = .ok text := by
  unfold fetch at h
  dsimp only at h
  have hrest (ignored : Bool)
      (h : (if ignored = true then
          (pure (.skipped (.skipped (LintResult.skipped i.path) i.sheet)) :
            Except LintError PreparedInput)
        else do return .ready r (← textOf fs i)) = .ok p) :
      p = .skipped (.skipped (LintResult.skipped i.path) i.sheet) ∨
        ∃ text, p = .ready r text ∧ textOf fs i = .ok text := by
    split at h
    case isTrue => exact .inl (Except.ok.inj h).symm
    case isFalse =>
        cases htext : textOf fs i with
        | error e =>
            rw [htext] at h
            cases h
        | ok text =>
            rw [htext] at h
            exact .inr ⟨text, (Except.ok.inj h).symm, rfl⟩
  split at h
  case h_1 path _ =>
      cases hignored : ignoredByConfig r path with
      | error e =>
          rw [hignored] at h
          cases h
      | ok ignored =>
          rw [hignored] at h
          exact hrest ignored h
  case h_2 => exact hrest false h

/-- A prepared input is left out, or it is ready under the configuration in force for it. -/
theorem prepare_eq_ok (h : (l.prepare i s).1 = .ok p) :
    p = .skipped (.skipped (LintResult.skipped i.path) i.sheet) ∨
      ∃ r t text, l.configFor i.path s = (.ok r, t) ∧ p = .ready r text ∧
        textOf t.files i = .ok text := by
  rw [prepare] at h
  split at h
  case h_1 => cases h
  case h_2 =>
      split at h
      case isTrue => exact .inl (Except.ok.inj h).symm
      case isFalse =>
          split at h
          case h_1 => cases h
          case h_2 r t hconfig =>
              rcases fetch_eq_ok h with hskipped | ⟨text, hready, htext⟩
              · exact .inl hskipped
              · exact .inr ⟨r, t, text, hconfig, hready, htext⟩

/-- The text of a file is what is read from it. -/
theorem textOf_file {fs : FileSystem} {path : String} {cache : Bool} {text : Option String}
    (h : textOf fs (.ofFile path cache) = .ok text) :
    ∃ t, text = some t ∧ fs.readText path = .ok t := by
  simp only [textOf, LintInput.ofFile] at h
  split at h
  case h_1 t hread => exact ⟨t, (Except.ok.inj h).symm, hread⟩
  case h_2 => cases h

theorem ready_of_fetch {fs : FileSystem} {path : String} {cache : Bool} {c r : EffectiveConfig}
    {text : Option String} (h : fetch fs (.ofFile path cache) c = .ok (.ready r text)) :
    r = c ∧ ∃ t, text = some t ∧ fs.readText path = .ok t := by
  rcases fetch_eq_ok h with hskipped | ⟨own, hready, htext⟩
  · cases hskipped
  · obtain ⟨rfl, rfl⟩ := PreparedInput.ready.inj hready
    exact ⟨rfl, textOf_file htext⟩

/-- A file that is left out is skipped, and nothing else is known of it. -/
theorem skipped_of_prepare {path : String} {cache : Bool}
    (h : (l.prepare (.ofFile path cache) s).1 = .ok (.skipped o)) :
    o = .skipped (LintResult.skipped path) none := by
  rcases prepare_eq_ok h with hskipped | ⟨_, _, _, -, hready, -⟩
  · exact PreparedInput.skipped.inj hskipped
  · cases hready

/-- A check chooses a parser, reads a sheet, and tells what the rules make of it. -/
theorem checkInput_eq_ok {registry : Registry} {r : EffectiveConfig} {text : Option String}
    (h : checkInput registry i r text = .ok o) :
    ∃ parser sheet linted, registry.chooseParser r.config.customSyntax i.path = .ok parser ∧
      sheetOf parser i text = .ok (sheet, linted) ∧
      o = ⟨(CheckedSheet.make r registry parser.print i.path sheet).result,
        (CheckedSheet.make r registry parser.print i.path sheet).output, some linted,
        some (CheckedSheet.make r registry parser.print i.path sheet).sheet⟩ := by
  rw [checkInput] at h
  simp only [bind, Except.bind, pure, Except.pure] at h
  split at h
  case h_1 => cases h
  case h_2 parser hparser =>
      split at h
      case h_1 => cases h
      case h_2 read hread =>
          obtain ⟨sheet, linted⟩ := read
          exact ⟨parser, sheet, linted, hparser, hread, (Except.ok.inj h).symm⟩

theorem examineCached_eq_ok {r : EffectiveConfig} {text : Option String} {path : String}
    {entry : CacheEntry} (h : (l.examineCached i r text path entry s).1 = .ok o) :
    o = .skipped (LintResult.cached i.path) none ∨ checkInput l.registry i r text = .ok o := by
  rw [examineCached] at h
  dsimp only at h
  split at h
  case isTrue => exact .inl (Except.ok.inj h).symm
  case isFalse =>
      cases hcheck : checkInput l.registry i r text with
      | error e =>
          rw [hcheck] at h
          cases h
      | ok checked =>
          rw [hcheck] at h
          exact .inr h

/-- What is left out stays so; anything else is answered from the cache or checked. -/
theorem examine_eq_ok (h : (l.examine i p s).1 = .ok o) :
    p = .skipped o ∨ o = .skipped (LintResult.cached i.path) none ∨
      ∃ r text, p = .ready r text ∧ checkInput l.registry i r text = .ok o := by
  cases p with
  | skipped outcome => exact .inl (congrArg PreparedInput.skipped (Except.ok.inj h))
  | ready r text =>
      rw [examine] at h
      split at h
      case h_1 => cases h
      case h_2 => exact .inr (.inr ⟨r, text, rfl, h⟩)
      case h_3 =>
          rcases examineCached_eq_ok h with hcached | hchecked
          · exact .inr (.inl hcached)
          · exact .inr (.inr ⟨r, text, rfl, hchecked⟩)

/-- An input without an error is left out, answered from the cache, or its text is checked. -/
theorem lintInput_cases (h : (l.lintInput i s).1 = .ok o) :
    o = .skipped (LintResult.skipped i.path) i.sheet ∨
      o = .skipped (LintResult.cached i.path) none ∨
      ∃ r t text, l.configFor i.path s = (.ok r, t) ∧ textOf t.files i = .ok text ∧
        checkInput l.registry i r text = .ok o := by
  rw [lintInput] at h
  split at h
  case h_1 => cases h
  case h_2 p t hprepare =>
      have hprepared := prepare_eq_ok (congrArg Prod.fst hprepare)
      rcases examine_eq_ok h with rfl | hcached | ⟨r, text, rfl, hcheck⟩
      · rcases hprepared with hskipped | ⟨_, _, _, -, hready, -⟩
        · exact .inl (PreparedInput.skipped.inj hskipped)
        · cases hready
      · exact .inr (.inl hcached)
      · rcases hprepared with hskipped | ⟨_, _, _, hconfig, hready, htext⟩
        · cases hskipped
        · obtain ⟨rfl, rfl⟩ := PreparedInput.ready.inj hready
          exact .inr (.inr ⟨r, _, text, hconfig, htext, hcheck⟩)

/--
An input without an error is left out, answered from the cache, or checked under the configuration
in force for it.
-/
theorem lintInput_eq_ok (h : (l.lintInput i s).1 = .ok o) :
    o = .skipped (LintResult.skipped i.path) i.sheet ∨
      o = .skipped (LintResult.cached i.path) none ∨
      ∃ r text, (l.configFor i.path s).1 = .ok r ∧ checkInput l.registry i r text = .ok o := by
  rcases lintInput_cases h with hskipped | hcached | ⟨r, t, text, hconfig, -, hcheck⟩
  · exact .inl hskipped
  · exact .inr (.inl hcached)
  · exact .inr (.inr ⟨r, text, congrArg Prod.fst hconfig, hcheck⟩)

/-- An error that does not end the run is told as a result that holds nothing else. -/
theorem resultOfError_eq_ok {source : Option String} {e : LintError} {r : LintResult}
    (h : (resultOfError source e s).1 = .ok r) :
    (∃ error, r = LintResult.ofSyntaxError source error) ∨ r = LintResult.ofError source e := by
  rw [resultOfError.eq_def] at h
  split at h
  case h_1 error => exact .inl ⟨error, (Except.ok.inj h).symm⟩
  case h_2 =>
      split at h
      case isTrue => cases h
      case isFalse => exact .inr (Except.ok.inj h).symm

theorem writeBack_eq_ok {path : String} {r : LintResult} (h : (writeBack path o s).1 = .ok r) :
    r = o.result := by
  rw [writeBack] at h
  split at h
  case h_1 =>
      split at h
      case h_1 => cases h
      case h_2 => exact (Except.ok.inj h).symm
  case h_2 => exact (Except.ok.inj h).symm

/-- A path has the result of its outcome, or one that tells of an error. -/
theorem finish_eq_ok {path : String} {x : Except LintError InputOutcome} {r : LintResult}
    (h : (finish path x s).1 = .ok r) :
    (∃ o, x = .ok o ∧ r = o.result) ∨ ∃ e t, (resultOfError (some path) e t).1 = .ok r := by
  cases x with
  | error e => exact .inr ⟨e, _, h⟩
  | ok o =>
      rw [finish] at h
      split at h
      case h_1 e t _ => exact .inr ⟨e, _, h⟩
      case h_2 own t hwritten =>
          obtain rfl := Except.ok.inj h
          exact .inl ⟨o, rfl, writeBack_eq_ok (congrArg Prod.fst hwritten)⟩

/--
A run of code gives one result at most: that of the code, or one that tells of an error. The code
that it gives back is not part of the count.
-/
theorem lintText_eq_ok {code : String} {a : Aggregate} (h : (l.lintText code s).1 = .ok a) :
    ∃ results given, a = { l.aggregate results with code := given } ∧
      (results = [] ∨
        (∃ i o, (l.lintInput i s).1 = .ok o ∧ results = [o.result]) ∨
        ∃ source e t r, (resultOfError source e t).1 = .ok r ∧ results = [r]) := by
  rw [lintText] at h
  dsimp only at h
  split at h
  case isTrue => exact ⟨[], _, (Except.ok.inj h).symm, .inl rfl⟩
  case isFalse =>
      split at h
      case h_1 o t hinput =>
          exact ⟨[o.result], _, (Except.ok.inj h).symm,
            .inr (.inl ⟨_, o, congrArg Prod.fst hinput, rfl⟩)⟩
      case h_2 e t _ =>
          split at h
          case h_1 => cases h
          case h_2 r u hresult =>
              exact ⟨[r], _, (Except.ok.inj h).symm,
                .inr (.inr ⟨_, e, t, r, congrArg Prod.fst hresult, rfl⟩)⟩

end Linter

end StyleAudit
