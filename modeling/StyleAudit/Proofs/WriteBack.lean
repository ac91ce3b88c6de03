import StyleAudit.Proofs.Fixing
import StyleAudit.Proofs.Lossless
import StyleAudit.Proofs.Transparency
import StyleAudit.Proofs.Turns

/-!
When a run changes the file of an input.

A text that is read and written again is the same text. So a file gets other bytes only through a
rule that fixes and has edited the sheet, and only where no disabled range of the sheet is for all
rules or for one that fixes.
-/

namespace StyleAudit

open FileSystem (AgreeOutside KeepsDirectories)

/-- A rule that edits a sheet only where it is to fix, and only if it says that it can. -/
def Rule.EditsOnlyToFix (rule : Rule) : Prop :=
  ∀ ctx sheet, (rule.check ctx sheet).1 ≠ sheet → ctx.fix = true ∧ rule.info.fixable = true

/-- A rule that replaces a value edits only where it is to fix. -/
theorem Rule.editsOnlyToFix_forbidValue {info : RuleMeta} {value : String}
    {replacement : Option String} (h : replacement = none ∨ info.fixable = true) :
    (forbidValue info value replacement).EditsOnlyToFix := by
  intro ctx sheet hedit
  cases hfix : ctx.fix with
  | false => simp [forbidValue, hfix] at hedit
  | true =>
      rcases h with rfl | hfixable
      · exact absurd (keeps_forbidValue_none ctx sheet) hedit
      · exact ⟨rfl, hfixable⟩

theorem Parser.parseCss_eq_ok {file : Option String} {source : String} {sheet : Sheet}
    (h : parseCss file source = .ok sheet) : Sheet.parse file source = .ok sheet := by
  rw [parseCss] at h
  split at h
  case h_1 hparsed => exact hparsed.trans (congrArg Except.ok (Except.ok.inj h))
  case h_2 => cases h

namespace EffectiveConfig

variable {r : EffectiveConfig} {registry : Registry} {path : String} {sheet : Sheet}

/-- Whether a rule of some name runs, can fix and is asked to. -/
def RunsFixing (r : EffectiveConfig) (registry : Registry) (name : String) : Prop :=
  ∃ settings rule, r.Runs registry name settings rule ∧ RuleRun.fixes r settings = true ∧
    rule.info.fixable = true

/-- Whether a configuration reads and writes the sheets of a path as CSS, and has no rule that
edits them except to fix. -/
structure FixesCss (r : EffectiveConfig) (registry : Registry) (path : String) : Prop where
  parser {parser : Parser}
    (h : registry.chooseParser r.config.customSyntax (some path) = .ok parser) :
    parser.parse = Parser.parseCss ∧ parser.print = Sheet.render
  rules {name : String} {settings : RuleSettings} {rule : Rule}
    (h : r.Runs registry name settings rule) : rule.EditsOnlyToFix

/-- The sheet that a rule of a configuration is given, when those before it have run. -/
def sheetBefore (r : EffectiveConfig) (registry : Registry) (path : String) (sheet : Sheet)
    (before : Table RuleSettings) : Sheet :=
  (before.foldl (RuleRun.step r registry (some path)) (RuleRun.start sheet (some path))).sheet

/-- Why a text may be written back: a rule that fixes has edited the sheet, and no disabled range
of the sheet is for all rules or for one that fixes. -/
structure WritesBack (r : EffectiveConfig) (registry : Registry) (path : String) (sheet : Sheet) :
    Prop where
  fix : r.fix = true
  edited : ∃ before name settings after rule, r.rules = before ++ (name, settings) :: after ∧
    r.Runs registry name settings rule ∧ RuleRun.fixes r settings = true ∧
    rule.info.fixable = true ∧
    (rule.check (RuleRun.context r (some path) name settings)
      (r.sheetBefore registry path sheet before)).1 ≠ r.sheetBefore registry path sheet before
  ranges : ∀ range ∈ DisabledRange.ofSheet sheet,
    ∃ name, range.rule = some name ∧ ¬r.RunsFixing registry name

end EffectiveConfig

namespace RuleRun

variable {r : EffectiveConfig} {registry : Registry} {file : Option String} {run : RuleRun}
  {name : String} {settings : RuleSettings}

/-- A step that changes the sheet runs a rule that edits it. -/
theorem exists_rule_of_step (h : (step r registry file run (name, settings)).sheet ≠ run.sheet) :
    ∃ rule, (r.quiet && settings.severity != .error) = false ∧
      r.rule? registry name = some rule ∧
      (rule.check (context r file name settings) run.sheet).1 ≠ run.sheet := by
  rw [step] at h
  split at h
  case isTrue => exact absurd rfl h
  case isFalse hquiet =>
      split at h
      case h_1 => exact absurd rfl h
      case h_2 rule hrule => exact ⟨rule, by simpa using hquiet, hrule, h⟩

/-- Steps that change the sheet in the end contain one that changes it. -/
theorem exists_step_of_foldl {entries : Table RuleSettings}
    (h : (entries.foldl (step r registry file) run).sheet ≠ run.sheet) :
    ∃ before entry after, entries = before ++ entry :: after ∧
      (step r registry file (before.foldl (step r registry file) run) entry).sheet ≠
        (before.foldl (step r registry file) run).sheet := by
  induction entries generalizing run with
  | nil => exact absurd rfl h
  | cons entry entries ih =>
      by_cases hfirst : (step r registry file run entry).sheet = run.sheet
      · rw [List.foldl_cons, ← hfirst] at h
        obtain ⟨before, other, after, rfl, hedit⟩ := ih h
        exact ⟨entry :: before, other, after, rfl, hedit⟩
      · exact ⟨[], entry, entries, rfl, hfirst⟩

def StepsFixing (r : EffectiveConfig) (registry : Registry) (name : String)
    (settings : RuleSettings) : Prop :=
  (r.quiet && settings.severity != .error) = false ∧ ∃ rule, r.rule? registry name = some rule ∧
    fixes r settings = true ∧ rule.info.fixable = true

/-- A step adds its rule to those that fix if the rule runs, can fix and is asked to. -/
theorem mem_fixing_step {other : String} :
    other ∈ (step r registry file run (name, settings)).fixing ↔
      other ∈ run.fixing ∨ other = name ∧ StepsFixing r registry name settings := by
  rw [step, StepsFixing]
  cases hquiet : r.quiet && settings.severity != .error with
  | true => simp
  | false =>
      cases hrule : r.rule? registry name with
      | none => simp
      | some rule =>
          by_cases hfixes : fixes r settings = true ∧ rule.info.fixable = true
          · simp [runRule, hfixes.1, hfixes.2]
          · have hskip : (fixes r settings && rule.info.fixable) = false := by
              simpa using hfixes
            simp [runRule, hskip, hfixes]

theorem mem_fixing_foldl (entries : Table RuleSettings) (run : RuleRun) :
    name ∈ (entries.foldl (step r registry file) run).fixing ↔ name ∈ run.fixing ∨
      ∃ settings, (name, settings) ∈ entries ∧ StepsFixing r registry name settings := by
  induction entries generalizing run with
  | nil => simp
  | cons entry entries ih =>
      obtain ⟨own, first⟩ := entry
      rw [List.foldl_cons, ih, mem_fixing_step, or_assoc]
      apply or_congr_right
      constructor
      · rintro (⟨rfl, hfirst⟩ | ⟨settings, hmem, hsteps⟩)
        · exact ⟨first, List.mem_cons_self, hfirst⟩
        · exact ⟨settings, List.mem_cons_of_mem _ hmem, hsteps⟩
      · rintro ⟨settings, hmem, hsteps⟩
        rcases List.mem_cons.1 hmem with heq | hmem
        · obtain ⟨rfl, rfl⟩ := Prod.mk.inj heq
          exact .inl ⟨rfl, hsteps⟩
        · exact .inr ⟨settings, hmem, hsteps⟩

/-- The rules that fixed are those that ran, can fix and were asked to. -/
theorem mem_fixing_runAll {sheet : Sheet} :
    name ∈ (runAll r registry file sheet).fixing ↔ r.RunsFixing registry name := by
  rw [runAll, mem_fixing_foldl]
  constructor
  · rintro (hstart | ⟨settings, hmem, hquiet, rule, hrule, hfixes, hfixable⟩)
    · cases hstart
    · exact ⟨settings, rule, ⟨hmem, hquiet, hrule⟩, hfixes, hfixable⟩
  · rintro ⟨settings, rule, ⟨hmem, hquiet, hrule⟩, hfixes, hfixable⟩
    exact .inr ⟨settings, hmem, hquiet, rule, hrule, hfixes, hfixable⟩

end RuleRun

/-- A sheet is written back only where its configuration says why. -/
theorem EffectiveConfig.writesBack_of_make {r : EffectiveConfig} {registry : Registry}
    {path : String} {sheet : Sheet} {fixed : String} (hrules : r.FixesCss registry path)
    (hfixed : (CheckedSheet.make r registry Sheet.render (some path) sheet).output = some fixed)
    (hne : sheet.render ≠ fixed) : r.WritesBack registry path sheet ∧
      fixed = (RuleRun.runAll r registry (some path) sheet).sheet.render := by
  rw [CheckedSheet.make] at hfixed
  dsimp only at hfixed
  split at hfixed
  case isFalse => cases hfixed
  case isTrue hallowed =>
      obtain rfl := Option.some.inj hfixed
      obtain ⟨hfix, hallowed⟩ := Bool.and_eq_true_iff.1 hallowed
      have hchanged : (RuleRun.runAll r registry (some path) sheet).sheet ≠ sheet :=
        fun hsame => hne (congrArg Sheet.render hsame).symm
      obtain ⟨before, ⟨name, settings⟩, after, hrow, hstep⟩ :=
        RuleRun.exists_step_of_foldl hchanged
      obtain ⟨rule, hquiet, hrule, hedit⟩ := RuleRun.exists_rule_of_step hstep
      have hruns : r.Runs registry name settings rule :=
        ⟨hrow ▸ List.mem_append_right _ List.mem_cons_self, hquiet, hrule⟩
      obtain ⟨hfixes, hfixable⟩ := hrules.rules hruns _ _ hedit
      refine ⟨⟨hfix, ?_, ?_⟩, rfl⟩
      · exact ⟨before, name, settings, after, rule, hrow, hruns, hfixes, hfixable, hedit⟩
      · intro range hrange
        rw [Bool.not_eq_true', List.any_eq_false] at hallowed
        have hspared := hallowed range hrange
        rw [CheckedSheet.forbidsWriting] at hspared
        cases hname : range.rule with
        | none =>
            rw [hname] at hspared
            exact absurd rfl hspared
        | some name =>
            rw [hname] at hspared
            dsimp only at hspared
            rw [List.contains_iff_mem, RuleRun.mem_fixing_runAll] at hspared
            exact ⟨name, rfl, hspared⟩

namespace Linter

variable {l : Linter} {s t : Session} {path text : String} {content : Content}

/-- A text that gets into the file of an input was written back for a reason. -/
theorem writesBack_of_checkInput {cache : Bool} {r : EffectiveConfig} {o : InputOutcome}
    {fixed : String}
    (hcheck : checkInput l.registry (.ofFile path cache) r (some text) = .ok o)
    (hrules : r.FixesCss l.registry path) (hfixed : rewritten? o = some fixed) :
    ∃ sheet, Sheet.parse (some path) text = .ok sheet ∧ r.WritesBack l.registry path sheet ∧
      fixed = (RuleRun.runAll r l.registry (some path) sheet).sheet.render := by
  obtain ⟨-, houtput, linted, hlinted, hne⟩ := rewritten?_eq_some hfixed
  obtain ⟨parser, sheet, own, hparser, hread, rfl⟩ := checkInput_eq_ok hcheck
  obtain ⟨hsheet, rfl⟩ := sheetOf_eq_ok hread
  obtain rfl := Option.some.inj hlinted
  obtain ⟨hparse, hprint⟩ := hrules.parser hparser
  rw [hparse] at hsheet
  rw [hprint] at houtput
  have hparsed := Parser.parseCss_eq_ok hsheet
  have hrender : sheet.render = own := String.ext (Reader.toList_render_parse hparsed)
  obtain ⟨hwrites, hrest⟩ := EffectiveConfig.writesBack_of_make hrules houtput (hrender ▸ hne)
  exact ⟨sheet, hparsed, hwrites, hrest⟩

def TurnsIn (l : Linter) (s : Session) (path : String) (t : Session) : Prop :=
  ∃ before after, l.inputs (l.opened s) = before ++ path :: after ∧
    t = (l.lintEach before (l.opened s)).2

/-- An input of a run stands in the files that the run opens. -/
theorem entry_of_mem_inputs (h : path ∈ l.inputs s) :
    ∃ names e, (names, e) ∈ s.files.entries ∧ path = Path.through names := by
  rw [inputs] at h
  split at h
  case h_1 found hfound =>
      exact (Discovery.entries_of_run hfound).2 path (List.mem_filter.1 h).1
  case h_2 => cases h

/-- An input has the same bytes when the run opens as before. -/
theorem read_opened (hproper : s.files.Proper) (hpath : path ∈ l.inputs (l.opened s))
    (hread : s.files.read path = .ok content) : (l.opened s).files.read path = .ok content := by
  obtain ⟨names, modified, hplace, hget⟩ := FileSystem.read_eq_ok hread
  rw [(AgreeOutside.tick s.files).locate] at hplace
  rcases l.files_opened s with heq | ⟨gone, -, hgone, heq⟩
  · rw [heq]
    exact FileSystem.read_of_get? hplace hget
  · obtain ⟨own, e, hmem, rfl⟩ := entry_of_mem_inputs hpath
    rw [heq] at hmem ⊢
    obtain ⟨hold, hstays⟩ := List.mem_filter.1 hmem
    have hown := hproper.names hold
    obtain rfl := FileSystem.locate_through hown.1 hown.2 hplace
    have hstill : (s.files.tick.erase gone).get? names = some (.file content modified) := by
      rw [FileSystem.get?_erase_of_ne (by simpa using hstays)]
      exact hget
    exact FileSystem.read_of_get? ((KeepsDirectories.erase hgone).locate hplace) hstill

/-- Saving the cache leaves a file alone that is neither that of the cache nor its draft. -/
theorem read_saveCache (hread : t.files.read path = .ok content)
    (hfile : l.usesCache = true → ¬(l.saveCache t).files.SamePlace t.cache.file path)
    (hdraft : l.usesCache = true → ¬(l.saveCache t).files.SamePlace t.cache.draftFile path) :
    (l.saveCache t).files.read path = .ok content := by
  obtain ⟨names, modified, hplace, hget⟩ := FileSystem.read_eq_ok hread
  obtain ⟨hkeeps, hstays⟩ := l.saveCache_frame t
  have hthere := hkeeps.locate hplace
  refine FileSystem.read_of_get? hthere ((hstays names (fun huse => ?_) fun huse => ?_).get? hget)
  · exact fun heq => hdraft huse ⟨names, heq, hthere⟩
  · exact fun heq => hfile huse ⟨names, heq, hthere⟩

/-- Once all inputs have had their turns, a run touches the files of its cache only. -/
theorem read_lint (hfiles : l.options.files.isSome) (hcode : l.options.code = none)
    (hfile : l.usesCache = true → ¬(l.lint s).2.files.SamePlace s.cache.file path)
    (hdraft : l.usesCache = true → ¬(l.lint s).2.files.SamePlace s.cache.draftFile path)
    (hread : (l.linted s).files.read path = .ok content) :
    (l.lint s).2.files.read path = .ok content := by
  obtain ⟨m, notices, ⟨e, hlint⟩ | ⟨results, -, hlint⟩⟩ := lint_cases hfiles hcode s
  · rw [hlint]
    exact hread
  · rw [hlint] at hfile hdraft ⊢
    refine read_saveCache hread (fun huse => ?_) fun huse => ?_
    · rw [cacheFile_linted]
      exact hfile huse
    · rw [Cache.draftFile, cacheFile_linted]
      exact hdraft huse

/-- An input has its turn with the bytes that the run opened, and keeps what the turn leaves. -/
theorem exists_turn (hproper : s.files.Proper) (hpath : path ∈ l.inputs (l.opened s)) :
    ∃ t u x, l.TurnsIn s path t ∧ l.Turn path t x u ∧
      (l.opened s).files.read path = t.files.read path ∧
      u.files.read path = (l.linted s).files.read path := by
  have hpaths := (inputs_spec (l := l) (l.proper_opened hproper)).1
  have hnodup := nodup_inputs (l := l) (l.proper_opened hproper)
  obtain ⟨before, after, hinputs⟩ := List.append_of_mem hpath
  rw [hinputs] at hpaths hnodup
  obtain ⟨t, u, x, D, ht, hturn, -, hspares, hbefore, hafter⟩ :=
    turn_lintEach (l := l) (s := l.opened s) hpaths hnodup
  rw [← hinputs, ← linted] at hafter
  have hspares' : u.files.Spares D path := by
    intro names hplace
    rw [← hturn.frame.files.locate, ← hbefore.files.locate] at hplace
    exact hspares names hplace
  exact ⟨t, u, x, ⟨before, after, hinputs, ht⟩, hturn, hbefore.files.read hspares,
    hafter.files.read hspares'⟩

/-- A new text that is written back is there. -/
theorem WritesBack.read_eq {o : InputOutcome} {fs fs' : FileSystem} {fixed : String}
    (h : WritesBack path o fs fs') (hfixed : rewritten? o = some fixed) :
    fs'.read path = .ok (.text fixed) := by
  cases h with
  | kept hkept => cases hkept.symm.trans hfixed
  | @rewritten other names hother _ hplace hfile =>
      obtain rfl := Option.some.inj (hother.symm.trans hfixed)
      have hne : names ≠ [] := by
        rintro rfl
        cases hfile
      have hlocate := (AgreeOutside.set hfile (.text other) fs.now).locate path
      have hget : (fs.set names (.file (.text other) fs.now)).get? names =
          some (.file (.text other) fs.now) := by
        rw [FileSystem.get?_set hne, if_pos rfl]
      exact FileSystem.read_of_get? (hlocate.symm.trans hplace) hget

theorem WritesBack.eq_of_kept {o : InputOutcome} {fs fs' : FileSystem}
    (h : WritesBack path o fs fs') (hkept : rewritten? o = none) : fs' = fs := by
  cases h with
  | kept => rfl
  | rewritten hfixed => cases hkept.symm.trans hfixed

/--
A run gives an input other bytes only by writing a fix back, unless it keeps its cache there: a
rule that can fix and is asked to has edited the sheet, no disabled range of the sheet is for all
rules or for one that fixed, and the file holds the fixed text in the end.
-/
theorem writesBack_of_changed (hfiles : l.options.files.isSome) (hcode : l.options.code = none)
    (hproper : s.files.Proper) (hpath : path ∈ l.inputs (l.opened s))
    (hfile : l.usesCache = true → ¬(l.lint s).2.files.SamePlace s.cache.file path)
    (hdraft : l.usesCache = true → ¬(l.lint s).2.files.SamePlace s.cache.draftFile path)
    (hrules : ∀ t r text, l.TurnsIn s path t → l.Readies path t r text →
      r.FixesCss l.registry path)
    (hread : s.files.read path = .ok content)
    (hchanged : (l.lint s).2.files.read path ≠ .ok content) :
    ∃ t r text sheet, l.TurnsIn s path t ∧ l.Readies path t r text ∧ content = .text text ∧
      Sheet.parse (some path) text = .ok sheet ∧ r.WritesBack l.registry path sheet ∧
      (l.lint s).2.files.read path =
        .ok (.text (RuleRun.runAll r l.registry (some path) sheet).sheet.render) := by
  obtain ⟨t, u, x, hturns, hturn, hbefore, hafter⟩ := exists_turn hproper hpath
  rw [read_opened hproper hpath hread] at hbefore
  have hend {c : Content} (h : u.files.read path = .ok c) : (l.lint s).2.files.read path = .ok c :=
    read_lint hfiles hcode hfile hdraft (hafter.symm.trans h)
  have hkept (heq : u.files = t.files) : False := by
    apply hchanged
    apply hend
    rw [heq, ← hbefore]
  cases hturn with
  | failed heq _ _ => exact (hkept heq).elim
  | skipped heq _ => exact (hkept heq).elim
  | hit _ _ _ heq _ => exact (hkept heq).elim
  | @checked r text o _ hready hcheck _ hwritten _ _ _ =>
      cases hfixed : rewritten? o with
      | none => exact (hkept (hwritten.eq_of_kept hfixed)).elim
      | some fixed =>
          obtain ⟨sheet, hsheet, hwrites, rfl⟩ :=
            writesBack_of_checkInput hcheck (hrules t r text hturns hready) hfixed
          have htext : t.files.read path = .ok (.text text) :=
            FileSystem.read_of_readText hready.readText
          obtain rfl := Except.ok.inj (hbefore.trans htext)
          exact ⟨t, r, text, sheet, hturns, hready, rfl, hsheet, hwrites,
            hend (hwritten.read_eq hfixed)⟩

end Linter

/-- The parser that is chosen is one of those that are registered. -/
theorem Registry.exists_parser_of_chooseParser {registry : Registry} {syntaxName : Option String}
    {path : Option String} {parser : Parser}
    (h : registry.chooseParser syntaxName path = .ok parser) :
    ∃ name, (name, parser) ∈ registry.parsers := by
  unfold chooseParser at h
  split at h
  case h_1 name =>
      split at h
      case h_1 found hfound =>
          obtain rfl := Except.ok.inj h
          exact ⟨name, Table.mem_of_find? hfound⟩
      case h_2 => cases h
  case h_2 =>
      split at h
      case h_2 => cases h
      case h_1 found hfound =>
          obtain rfl := Except.ok.inj h
          rcases (Option.orElse_eq_some _ _ _).1 hfound with hext | ⟨-, hdefault⟩
          · obtain ⟨p, -, hp⟩ := Option.bind_eq_some_iff.1 hext
            obtain ⟨extension, -, hsome⟩ := Option.bind_eq_some_iff.1 hp
            obtain ⟨⟨name, own⟩, hmem, htakes⟩ := List.exists_of_findSome?_eq_some hsome
            dsimp only at htakes
            split at htakes
            case isTrue =>
                obtain rfl := Option.some.inj htakes
                exact ⟨name, hmem⟩
            case isFalse => cases htakes
          · exact ⟨defaultSyntax, Table.mem_of_find? hdefault⟩

/-- Three sheets under one configuration, and a fourth under a configuration that is broken. -/
def paintFiles : FileSystem :=
  ⟨[(["w"], .directory),
    (["w", ".sheetlintrc"],
      .file (.text "\x7b\"rules\":\x7b\"no-red\":true,\"no-blue\":true\x7d\x7d") 0),
    (["w", "blue.css"], .file (.text "a \x7bcolor: blue\x7d") 0),
    (["w", "green.css"], .file (.text "a \x7bcolor: green\x7d") 0),
    (["w", "red.css"], .file (.text "a \x7bcolor: red\x7d") 0),
    (["w", "sub"], .directory), (["w", "sub", ".sheetlintrc"], .file (.text "\x7b") 0),
    (["w", "sub", "plain.css"], .file (.text "a \x7b\x7d") 0)], ["w"], 0, []⟩

/-- A configuration without plugins fixes as the registry of the two rules has it. -/
theorem fixesCss_paintRegistry {r : EffectiveConfig} (h : r.functions = []) (path : String) :
    r.FixesCss paintRegistry path := by
  constructor
  · intro parser hparser
    obtain ⟨name, hmem⟩ := Registry.exists_parser_of_chooseParser hparser
    obtain rfl := (Prod.mk.inj (List.mem_singleton.1 hmem)).2
    exact ⟨rfl, rfl⟩
  · rintro name settings rule ⟨-, -, hrule⟩
    rw [EffectiveConfig.rule?, h] at hrule
    rcases List.mem_pair.1 (Table.mem_of_find? (t := paintRegistry.rules) hrule) with heq | heq
    · obtain ⟨-, rfl⟩ := Prod.mk.inj heq
      exact Rule.editsOnlyToFix_forbidValue (.inr rfl)
    · obtain ⟨-, rfl⟩ := Prod.mk.inj heq
      exact Rule.editsOnlyToFix_forbidValue (.inl rfl)

def Linter.isPlain (l : Linter) (path : String) (s : Session) : Bool :=
  match (l.prepare (.ofFile path l.usesCache) s).1 with
  | .ok (.ready r _) => r.functions.isEmpty
  | _ => false

theorem Linter.functions_of_isPlain {l : Linter} {path text : String} {s : Session}
    {r : EffectiveConfig} (h : l.isPlain path s = true) (hready : l.Readies path s r text) :
    r.functions = [] := by
  rw [isPlain, hready] at h
  exact List.isEmpty_iff.1 h

theorem Linter.writesBack_of_changed_red :
    ∃ l s t r text sheet, make (deskOptions ["red.css"]) paintRegistry paintFiles = .ok (l, s) ∧
      l.TurnsIn s "/w/red.css" t ∧ l.Readies "/w/red.css" t r text ∧
      Sheet.parse (some "/w/red.css") text = .ok sheet ∧
      r.WritesBack l.registry "/w/red.css" sheet ∧ text = "a \x7bcolor: red\x7d" ∧
      (l.lint s).2.files.readText "/w/red.css" = .ok "a \x7bcolor: green\x7d" := by
  have hfacts : (make (deskOptions ["red.css"]) paintRegistry paintFiles).toOption.any
      (fun (l, s) => decide (l.options.files.isSome ∧ l.options.code = none ∧ s.files.Proper ∧
        l.inputs (l.opened s) = ["/w/red.css"] ∧
        ¬(l.lint s).2.files.SamePlace s.cache.file "/w/red.css" ∧
        ¬(l.lint s).2.files.SamePlace s.cache.draftFile "/w/red.css" ∧
        l.isPlain "/w/red.css" (l.opened s) = true ∧
        (s.files.readText "/w/red.css").toOption = some "a \x7bcolor: red\x7d" ∧
        ((l.lint s).2.files.readText "/w/red.css").toOption =
          some "a \x7bcolor: green\x7d")) = true := by
    decide +kernel
  obtain ⟨⟨l, s⟩, hmade, hfacts⟩ := (Option.any_eq_true _ _).1 hfacts
  obtain ⟨hfiles, hcode, hproper, hinputs, hfile, hdraft, hplain, hbefore, hafter⟩ :=
    of_decide_eq_true hfacts
  have hmade := eq_ok_of_toOption hmade
  have hbefore := FileSystem.read_of_readText (eq_ok_of_toOption hbefore)
  have hafter := eq_ok_of_toOption hafter
  obtain ⟨-, hregistry, -⟩ := make_spec hmade
  have hmem : "/w/red.css" ∈ l.inputs (l.opened s) := by simp [hinputs]
  have hrules (t : Session) (r : EffectiveConfig) (text : String)
      (hturns : l.TurnsIn s "/w/red.css" t) (hready : l.Readies "/w/red.css" t r text) :
      r.FixesCss l.registry "/w/red.css" := by
    obtain ⟨before, after, hrow, rfl⟩ := hturns
    rw [hinputs] at hrow
    obtain rfl : before = [] := by
      cases before with
      | nil => rfl
      | cons first before => simp at hrow
    rw [hregistry]
    exact fixesCss_paintRegistry (functions_of_isPlain hplain hready) _
  have hchanged :
      (l.lint s).2.files.read "/w/red.css" ≠ .ok (.text "a \x7bcolor: red\x7d") := by
    rw [FileSystem.read_of_readText hafter]
    simp
  obtain ⟨t, r, text, sheet, hturns, hready, htext, hsheet, hwrites, -⟩ :=
    writesBack_of_changed hfiles hcode hproper hmem (fun _ => hfile) (fun _ => hdraft) hrules
      hbefore hchanged
  exact ⟨l, s, t, r, text, sheet, hmade, hturns, hready, hsheet, hwrites,
    (Content.text.inj htext).symm, hafter⟩

/-- A directive in a selector is part of the selector: the sheet has no disabled range, and the red
in it is replaced. And a run that keeps its cache in the file of an input puts the cache there,
though it has no fix for the file. -/
theorem Linter.changed_without_fix :
    (∃ l s sheet, make (deskOptions ["red.css"]) paintRegistry
        (paintFiles.set ["w", "red.css"]
          (.file (.text "a /* sheetlint-disable */ \x7bcolor: red\x7d") 0)) = .ok (l, s) ∧
      Sheet.parse (some "/w/red.css") "a /* sheetlint-disable */ \x7bcolor: red\x7d" = .ok sheet ∧
      DisabledRange.ofSheet sheet = [] ∧ (l.lint s).2.files.readText "/w/red.css" =
        .ok "a /* sheetlint-disable */ \x7bcolor: green\x7d") ∧
    ∃ l s, make { deskOptions ["blue.css"] with cacheLocation := some "blue.css" } paintRegistry
        paintFiles = .ok (l, s) ∧
      "/w/blue.css" ∈ l.inputs (l.opened s) ∧ l.rewrittenInputs s = [] ∧
      s.files.read "/w/blue.css" = .ok (.text "a \x7bcolor: blue\x7d") ∧
      (l.lint s).2.files.readText "/w/blue.css" = .ok Content.noEntries := by
  have hselector : (make (deskOptions ["red.css"]) paintRegistry
      (paintFiles.set ["w", "red.css"]
        (.file (.text "a /* sheetlint-disable */ \x7bcolor: red\x7d") 0))).toOption.any
      (fun (l, s) => decide (((l.lint s).2.files.readText "/w/red.css").toOption =
        some "a /* sheetlint-disable */ \x7bcolor: green\x7d")) = true := by
    decide +kernel
  have hsheet : (Sheet.parse (some "/w/red.css")
      "a /* sheetlint-disable */ \x7bcolor: red\x7d").toOption.any
      (fun sheet => decide (DisabledRange.ofSheet sheet = [])) = true := by
    decide +kernel
  have hcache : (make { deskOptions ["blue.css"] with cacheLocation := some "blue.css" }
      paintRegistry paintFiles).toOption.any
      (fun (l, s) => decide ("/w/blue.css" ∈ l.inputs (l.opened s) ∧ l.rewrittenInputs s = [] ∧
        (s.files.read "/w/blue.css").toOption = some (.text "a \x7bcolor: blue\x7d") ∧
        ((l.lint s).2.files.readText "/w/blue.css").toOption = some Content.noEntries)) = true := by
    decide +kernel
  constructor
  · obtain ⟨⟨l, s⟩, hmade, hfixed⟩ := (Option.any_eq_true _ _).1 hselector
    obtain ⟨sheet, hparsed, hranges⟩ := (Option.any_eq_true _ _).1 hsheet
    exact ⟨l, s, sheet, eq_ok_of_toOption hmade, eq_ok_of_toOption hparsed,
      of_decide_eq_true hranges, eq_ok_of_toOption (of_decide_eq_true hfixed)⟩
  · obtain ⟨⟨l, s⟩, hmade, hfacts⟩ := (Option.any_eq_true _ _).1 hcache
    obtain ⟨hmem, hnone, hbefore, hafter⟩ := of_decide_eq_true hfacts
    exact ⟨l, s, eq_ok_of_toOption hmade, hmem, hnone, eq_ok_of_toOption hbefore,
      eq_ok_of_toOption hafter⟩

end StyleAudit
