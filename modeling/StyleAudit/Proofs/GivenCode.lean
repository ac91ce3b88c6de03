import StyleAudit.Proofs.Fixing
import StyleAudit.Proofs.Outcomes
import StyleAudit.Proofs.Transparency

/-!
The code that a run over code gives back.

If fixing is on is worked out twice: for the checks it is the configuration in force for the input,
and for the code that is given back without fixes it is what the options of the run and their
configuration say. The two differ where a configuration file, a base or an override has its say.
-/

namespace StyleAudit

/-- Whether a directive keeps the fixes in a sheet from being written. -/
def EffectiveConfig.withholds (r : EffectiveConfig) (registry : Registry) (file : Option String)
    (sheet : Sheet) : Bool :=
  (DisabledRange.ofSheet sheet).any
    (CheckedSheet.forbidsWriting (RuleRun.runAll r registry file sheet).fixing)

/-- The code that a configuration asks for: what the rules leave of it, or the code itself. -/
def EffectiveConfig.codeFor (r : EffectiveConfig) (registry : Registry) (parser : Parser)
    (file : Option String) (code : String) (sheet : Sheet) : Option String :=
  if r.fix then
    some (if r.withholds registry file sheet then code
      else parser.print (RuleRun.runAll r registry file sheet).sheet)
  else none

namespace Linter

variable {l : Linter} {code : String} {s : Session} {o : InputOutcome}

/-- Code as an input of a run, under the path that the options give it. -/
def codeInput (l : Linter) (code : String) : LintInput :=
  { path := l.options.codeFilename.map fun p => Path.absolutize p l.cwd, code := some code }

/-- What the patterns leave out comes to a result that is ignored, if it comes to one. -/
theorem ignored_of_leavesOut {i : LintInput} (hout : l.leavesOut i = true)
    (h : (l.lintInput i s).1 = .ok o) : o.result.ignored = true := by
  rw [lintInput, prepare] at h
  cases hfault : inputFault? i with
  | some e =>
      rw [hfault] at h
      cases h
  | none =>
      rw [hfault] at h
      dsimp only at h
      rw [if_pos hout] at h
      obtain rfl := Except.ok.inj h
      rfl

/-- Code that is not ignored is read and checked under the configuration in force for it. -/
theorem checked_of_code (h : (l.lintInput (l.codeInput code) s).1 = .ok o)
    (hignored : o.result.ignored = false) :
    ∃ r t parser sheet, l.configFor (l.codeInput code).path s = (.ok r, t) ∧
      l.registry.chooseParser r.config.customSyntax (l.codeInput code).path = .ok parser ∧
      parser.parse (l.codeInput code).path code = .ok sheet ∧
      o.output =
        (CheckedSheet.make r l.registry parser.print (l.codeInput code).path sheet).output := by
  rcases lintInput_cases h with rfl | rfl | ⟨r, t, text, hconfig, htext, hcheck⟩
  · cases hignored
  · cases hignored
  · obtain rfl := Except.ok.inj htext
    obtain ⟨parser, sheet, linted, hparser, hread, rfl⟩ := checkInput_eq_ok hcheck
    refine ⟨r, t, parser, sheet, hconfig, hparser, ?_, rfl⟩
    simp only [sheetOf, codeInput] at hread
    split at hread
    case h_1 parsed hparsed =>
        obtain ⟨rfl, -⟩ := Prod.mk.inj (Except.ok.inj hread)
        exact hparsed
    case h_2 => cases hread

/-- A run over code that ends without an error has one result and gives back code. -/
theorem lint_of_code (hfiles : l.options.files = none) (hcode : l.options.code = some code)
    (h : (l.lintInput (l.codeInput code) s.started).1 = .ok o)
    (hignored : o.result.ignored = false) :
    (l.lint s).1 = .ok { l.aggregate [o.result] with
      code := o.output <|> (if l.wantsFix then some code else none) } := by
  have hin : ¬l.leavesOut (l.codeInput code) = true := by
    intro hout
    rw [ignored_of_leavesOut hout h] at hignored
    cases hignored
  have hlint : l.lint s = l.lintText code s.started := by
    rw [lint, hfiles, hcode]
    rfl
  rw [hlint, lintText]
  rw [codeInput] at hin h
  dsimp only
  rw [if_neg hin]
  split
  case h_1 own t hinput =>
      rw [hinput] at h
      obtain rfl := Except.ok.inj h
      rw [codeAfter, if_neg (by simp [hignored])]
  case h_2 e t hinput =>
      rw [hinput] at h
      cases h

/-- A run over code gives back what the configuration in force asks for exactly if the options ask
for fixes as it does, or fixes are written. -/
theorem lint_gives_code (hfiles : l.options.files = none) (hcode : l.options.code = some code)
    (h : (l.lintInput (l.codeInput code) s.started).1 = .ok o)
    (hignored : o.result.ignored = false) :
    ∃ r t parser sheet a, l.configFor (l.codeInput code).path s.started = (.ok r, t) ∧
      l.registry.chooseParser r.config.customSyntax (l.codeInput code).path = .ok parser ∧
      parser.parse (l.codeInput code).path code = .ok sheet ∧
      (l.lint s).1 = .ok a ∧ a.results = [o.result] ∧
      a.code = (if r.fix && !r.withholds l.registry (l.codeInput code).path sheet then
          r.codeFor l.registry parser (l.codeInput code).path code sheet
        else if l.wantsFix then some code else none) ∧
      (a.code = r.codeFor l.registry parser (l.codeInput code).path code sheet ↔
        l.wantsFix = r.fix ∨
          (r.fix = true ∧ r.withholds l.registry (l.codeInput code).path sheet = false)) := by
  obtain ⟨r, t, parser, sheet, hconfig, hparser, hparse, houtput⟩ := checked_of_code h hignored
  refine ⟨r, t, parser, sheet, _, hconfig, hparser, hparse, lint_of_code hfiles hcode h hignored,
    rfl, ?_⟩
  have hwritten : o.output = if r.fix && !r.withholds l.registry (l.codeInput code).path sheet then
      some (parser.print (RuleRun.runAll r l.registry (l.codeInput code).path sheet).sheet)
        else none :=
    houtput
  rw [hwritten, EffectiveConfig.codeFor]
  generalize r.withholds l.registry (l.codeInput code).path sheet = withheld
  cases r.fix <;> cases withheld <;> cases l.wantsFix <;> simp

def fixingFiles : FileSystem :=
  ⟨[(["w"], .directory),
    (["w", ".sheetlintrc"],
      .file (.text "\x7b\"rules\":\x7b\"no-red\":true\x7d,\"fix\":true\x7d") 0)], ["w"], 0, []⟩

/-- A run over code, with the setting in force for the code and what is given back. -/
theorem exists_run {options : Options} {fs : FileSystem} {code : String} {fix : Bool}
    {given : Option String}
    (h : (make options paintRegistry fs).toOption.any (fun p => decide (
        ((p.1.lintInput (p.1.codeInput code) p.2.started).1.toOption.any fun o =>
          !o.result.ignored) = true ∧
        ((p.1.configFor (p.1.codeInput code).path p.2.started).1.toOption.any fun r =>
          r.fix == fix) = true ∧
        ((p.1.lint p.2).1.toOption.any fun a => a.code == given) = true)) = true) :
    ∃ l s o r a, make options paintRegistry fs = .ok (l, s) ∧
      (l.lintInput (l.codeInput code) s.started).1 = .ok o ∧ o.result.ignored = false ∧
      (l.configFor (l.codeInput code).path s.started).1 = .ok r ∧ r.fix = fix ∧
      (l.lint s).1 = .ok a ∧ a.code = given := by
  obtain ⟨⟨l, s⟩, hmade, hfacts⟩ := (Option.any_eq_true _ _).1 h
  obtain ⟨hinput, hconfig, hrun⟩ := of_decide_eq_true hfacts
  obtain ⟨o, ho, hignored⟩ := (Option.any_eq_true _ _).1 hinput
  obtain ⟨r, hr, hfix⟩ := (Option.any_eq_true _ _).1 hconfig
  obtain ⟨a, ha, hgiven⟩ := (Option.any_eq_true _ _).1 hrun
  exact ⟨l, s, o, r, a, eq_ok_of_toOption hmade, eq_ok_of_toOption ho, by simpa using hignored,
    eq_ok_of_toOption hr, eq_of_beq hfix, eq_ok_of_toOption ha, eq_of_beq hgiven⟩

/-- Fixed code is given back. -/
theorem lint_gives_code_fixed :
    ∃ l s o r t a, make { code := some "a \x7bcolor: red\x7d" } paintRegistry fixingFiles =
        .ok (l, s) ∧
      (l.lintInput (l.codeInput "a \x7bcolor: red\x7d") s.started).1 = .ok o ∧
      l.configFor (l.codeInput "a \x7bcolor: red\x7d").path s.started = (.ok r, t) ∧
      r.fix = true ∧ (l.lint s).1 = .ok a ∧ a.results = [o.result] ∧
      a.code = some "a \x7bcolor: green\x7d" := by
  obtain ⟨l, s, o, own, b, hmade, ho, hignored, hown, hfix, hb, hgiven⟩ :=
    @exists_run { code := some "a \x7bcolor: red\x7d" } fixingFiles "a \x7bcolor: red\x7d" true
      (some "a \x7bcolor: green\x7d") (by decide +kernel)
  obtain ⟨hoptions, -⟩ := make_spec hmade
  obtain ⟨r, t, -, -, a, hresolved, -, -, ha, hresults, -⟩ :=
    lint_gives_code (by rw [hoptions]) (by rw [hoptions]) ho hignored
  rw [hresolved] at hown
  obtain rfl := Except.ok.inj hown
  obtain rfl := Except.ok.inj (hb.symm.trans ha)
  exact ⟨l, s, o, r, t, b, hmade, ho, hresolved, hfix, hb, hresults, hgiven⟩

/-- The options of a run over code with fixing on, but off for sheets. -/
def unfixedOptions : Options where
  code := some "a \x7bcolor: red\x7d"
  codeFilename := some "a.css"
  config := some { Config.empty with
    rules := some [("no-red", .bool true)]
    fix := some true
    overrides := [⟨["*.css"], { Config.empty with fix := some false }⟩] }

/-- Code is not given back where a configuration file has fixing on and a directive withholds the
fixes, and is given back where an override has fixing off. -/
theorem lint_gives_code_otherwise :
    (∃ l s o r a, make { code := some "/* sheetlint-disable */ a \x7bcolor: red\x7d" }
        paintRegistry fixingFiles = .ok (l, s) ∧
      (l.lintInput (l.codeInput "/* sheetlint-disable */ a \x7bcolor: red\x7d")
        s.started).1 = .ok o ∧ o.result.ignored = false ∧
      (l.configFor (l.codeInput "/* sheetlint-disable */ a \x7bcolor: red\x7d").path
        s.started).1 = .ok r ∧ r.fix = true ∧
      (l.lint s).1 = .ok a ∧ a.code = none) ∧
    ∃ l s o r a, make unfixedOptions paintRegistry fixingFiles = .ok (l, s) ∧
      (l.lintInput (l.codeInput "a \x7bcolor: red\x7d") s.started).1 = .ok o ∧
      o.result.ignored = false ∧
      (l.configFor (l.codeInput "a \x7bcolor: red\x7d").path s.started).1 = .ok r ∧
      r.fix = false ∧ (l.lint s).1 = .ok a ∧ a.code = some "a \x7bcolor: red\x7d" :=
  ⟨exists_run (by decide +kernel), exists_run (by decide +kernel)⟩

end Linter

end StyleAudit
