import StyleAudit.Proofs.Paths
import StyleAudit.Proofs.Transparency

/-!
What the patterns of a run leave out.

They are asked twice about a file. First they are taken from the directory of the globs, and what
they leave out there takes no part in the run. In the turn of a file they are taken from the
working directory, and a file that they leave out there has a result that says so. The two differ
where the directories do.
-/

namespace StyleAudit

theorem isIgnored_nil (path : String) : isIgnored [] path = false := by
  have habove (dirs : List String) : ignoreVerdictAbove [] dirs = none := by
    induction dirs with
    | nil => rfl
    | cons dir dirs ih =>
        rw [ignoreVerdictAbove, ih]
        rfl
  rw [isIgnored, habove]
  rfl

namespace Linter

variable {l : Linter} {path : String}

def withoutPatterns (l : Linter) : Linter :=
  { l with ignorer := { l.ignorer with patterns := [] } }

theorem ignores_withoutPatterns (l : Linter) (path : String) :
    l.withoutPatterns.ignorer.ignores path = false := by
  rw [Ignorer.ignores, Ignorer.ignoresUnder]
  split
  · rfl
  · rw [withoutPatterns, isIgnored_nil, Bool.and_false]

/-- The turn of a file that the patterns leave out changes nothing and says so. -/
theorem lintFile_of_ignores (habsolute : Path.isAbsolute path = true)
    (h : l.ignorer.ignores path = true) (s : Session) :
    l.lintFile path s = (.ok (LintResult.skipped path), s) := by
  have hfault : inputFault? (.ofFile path l.usesCache) = none := by
    rw [inputFault?, LintInput.ofFile]
    simp [habsolute]
  have hout : l.leavesOut (.ofFile path l.usesCache) = true := h
  rw [lintFile, lintInput, prepare, hfault]
  dsimp only
  rw [if_pos hout]
  rfl

/-- The turn of any other file is the one that it has without patterns. -/
theorem lintFile_withoutPatterns (h : l.ignorer.ignores path = false) (s : Session) :
    l.lintFile path s = l.withoutPatterns.lintFile path s := by
  have hin : l.leavesOut (.ofFile path l.usesCache) = false := h
  have hplain : l.withoutPatterns.leavesOut (.ofFile path l.withoutPatterns.usesCache) = false :=
    l.ignores_withoutPatterns path
  have hprepare : l.prepare (.ofFile path l.usesCache) s =
      l.withoutPatterns.prepare (.ofFile path l.withoutPatterns.usesCache) s := by
    rw [prepare, prepare, hin, hplain]
    rfl
  rw [lintFile, lintFile, lintInput, lintInput, hprepare]
  rfl

/-- In a row the files that the patterns leave out stand aside, and the others take the turns that
they take in a row of their own without patterns. -/
theorem lintEach_withoutPatterns {paths : List String}
    (hpaths : ∀ p ∈ paths, Path.isAbsolute p = true) (s : Session) :
    (l.lintEach paths s).2 =
        (l.withoutPatterns.lintEach (paths.filter fun p => !l.ignorer.ignores p) s).2 ∧
      (∀ turn ∈ paths.zip (l.lintEach paths s).1, l.ignorer.ignores turn.1 = true →
        turn.2 = .ok (LintResult.skipped turn.1)) ∧
      (paths.zip (l.lintEach paths s).1).filter (fun turn => !l.ignorer.ignores turn.1) =
        (paths.filter fun p => !l.ignorer.ignores p).zip
          (l.withoutPatterns.lintEach (paths.filter fun p => !l.ignorer.ignores p) s).1 := by
  induction paths generalizing s with
  | nil => exact ⟨rfl, List.forall_mem_nil _, rfl⟩
  | cons path paths ih =>
      obtain ⟨hpath, hrest⟩ := List.forall_mem_cons.1 hpaths
      cases h : l.ignorer.ignores path with
      | true =>
          obtain ⟨hsession, hskipped, hturns⟩ := ih hrest s
          rw [lintEach, lintFile_of_ignores hpath h, List.filter_cons_of_neg (by simp [h])]
          refine ⟨hsession, List.forall_mem_cons.2 ⟨fun _ => rfl, hskipped⟩, ?_⟩
          rw [List.zip_cons_cons, List.filter_cons_of_neg (by simp [h])]
          exact hturns
      | false =>
          obtain ⟨hsession, hskipped, hturns⟩ := ih hrest (l.lintFile path s).2
          rw [List.filter_cons_of_pos (by simp [h]), lintEach, lintEach,
            ← lintFile_withoutPatterns h]
          refine ⟨hsession, List.forall_mem_cons.2 ⟨fun hignored => ?_, hskipped⟩, ?_⟩
          · rw [h] at hignored
            cases hignored
          · rw [List.zip_cons_cons, List.filter_cons_of_pos (by simp [h]), hturns]
            rfl

/-- Where the patterns leave nothing out, every file has the turn that it has without them. -/
theorem lintEach_eq_withoutPatterns {paths : List String}
    (hpaths : ∀ p ∈ paths, l.ignorer.ignores p = false) (s : Session) :
    l.lintEach paths s = l.withoutPatterns.lintEach paths s := by
  induction paths generalizing s with
  | nil => rfl
  | cons path paths ih =>
      obtain ⟨hpath, hrest⟩ := List.forall_mem_cons.1 hpaths
      rw [lintEach, lintEach, lintFile_withoutPatterns hpath]
      rcases l.withoutPatterns.lintFile path s with ⟨r, t⟩
      dsimp only
      rw [ih hrest]

/-- How a run of files ends when its inputs have had their turns. -/
def conclude (l : Linter) (turns : List (Except LintError LintResult) × Session) :
    Except LintError Aggregate × Session :=
  match collect turns.1 with
  | .error e => (.error e, turns.2)
  | .ok results => (.ok (l.aggregate results), l.saveCache turns.2)

/-- What the patterns of a run decide about the files that are found for it. -/
structure PatternsDecide (l : Linter) (found : Discovery) (s : Session) : Prop where
  /-- First they are taken from the directory of the globs. -/
  kept (path : String) : path ∈ l.inputs (l.opened s) ↔
    path ∈ found.files ∧ l.ignorer.ignoresUnder path l.globDir = false
  /-- If they leave nothing, the run tells so, unless it may have nothing to lint. -/
  nothing (h : l.inputs (l.opened s) = []) (hfound : found.files ≠ [])
    (hempty : (l.allowsEmptyInput (l.opened s)).1 = .ok false) :
    (l.lint s).1 = .error .allFilesIgnored
  /-- Then they are taken from the working directory: what they leave out there is skipped, and
  everything else has the turn that it has without patterns. -/
  turns (h : l.inputs (l.opened s) ≠ []) :
    let linted := (l.inputs (l.opened s)).filter fun path => !l.ignorer.ignores path
    let plain := l.withoutPatterns.lintEach linted (l.opened s)
    ∃ results, l.lint s = l.conclude (results, plain.2) ∧
      results.length = (l.inputs (l.opened s)).length ∧
      (∀ turn ∈ (l.inputs (l.opened s)).zip results, l.ignorer.ignores turn.1 = true →
        turn.2 = .ok (LintResult.skipped turn.1)) ∧
      ((l.inputs (l.opened s)).zip results).filter (fun turn => !l.ignorer.ignores turn.1) =
        linted.zip plain.1
  /-- Where nothing more is left out there, a run decides once about every file. -/
  once (h : l.inputs (l.opened s) ≠ [])
    (hagree : ∀ path ∈ found.files,
      l.ignorer.ignores path = true → l.ignorer.ignoresUnder path l.globDir = true) :
    l.lint s = l.conclude (l.withoutPatterns.lintEach (l.inputs (l.opened s)) (l.opened s))
  /-- That is so where globs are taken from the working directory. -/
  agree (h : l.globDir = l.ignorer.cwd) (path : String) :
    l.ignorer.ignores path = l.ignorer.ignoresUnder path l.globDir

/-- A run leaves out what the patterns say about the directory of the globs, and then skips what
they say about the working directory. -/
theorem patternsDecide {s : Session} {found : Discovery} (hfiles : l.options.files.isSome)
    (hcode : l.options.code = none)
    (hfound : Discovery.run (l.opened s).files (l.options.files.getD []) l.globDir
      l.options.keepExcluded = .ok found) : l.PatternsDecide found s := by
  have hkept (path : String) : path ∈ l.inputs (l.opened s) ↔
      path ∈ found.files ∧ l.ignorer.ignoresUnder path l.globDir = false := by
    rw [inputs_of_run hfound, List.mem_filter, Bool.not_eq_true']
  have hpaths : ∀ p ∈ l.inputs (l.opened s), Path.isAbsolute p = true := by
    intro p hp
    obtain ⟨names, e, -, rfl⟩ := (Discovery.entries_of_run hfound).2 p ((hkept p).1 hp).1
    exact Path.isAbsolute_through names
  have hrun (h : l.inputs (l.opened s) ≠ []) :
      l.lint s = l.conclude (l.lintEach (l.inputs (l.opened s)) (l.opened s)) := by
    rw [lint_of_files hfiles hcode, hfound]
    dsimp only
    rw [lintFound, if_neg (by simpa using h), lintAll, conclude]
    rcases l.lintEach (l.inputs (l.opened s)) (l.opened s) with ⟨results, t⟩
    dsimp only
    cases collect results <;> rfl
  refine ⟨hkept, fun h hne hempty => ?_, fun h => ?_, fun h hagree => ?_, fun h path => ?_⟩
  · have hnothing : (l.lintNothing found (l.opened s)).1 = .error .allFilesIgnored := by
      rcases hallowed : l.allowsEmptyInput (l.opened s) with ⟨allowed, t⟩
      rw [hallowed] at hempty
      dsimp only at hempty
      rw [lintNothing, hallowed, hempty]
      exact congrArg Except.error (if_neg (by simpa using hne))
    rw [lint_of_files hfiles hcode, hfound]
    dsimp only
    rw [lintFound, if_pos (by simp [h])]
    rcases hresults : l.lintNothing found (l.opened s) with ⟨results, t⟩
    rw [hresults] at hnothing
    obtain rfl : results = .error .allFilesIgnored := hnothing
    rfl
  · obtain ⟨hsession, hskipped, hturns⟩ := lintEach_withoutPatterns hpaths (l.opened s)
    refine ⟨(l.lintEach (l.inputs (l.opened s)) (l.opened s)).1, ?_, l.length_lintEach _ _,
      hskipped, hturns⟩
    rw [hrun h, ← hsession]
  · rw [hrun h, lintEach_eq_withoutPatterns fun p hp => ?_]
    obtain ⟨hfile, hstays⟩ := (hkept p).1 hp
    rw [Bool.eq_false_iff]
    intro hignored
    rw [hagree p hfile hignored] at hstays
    cases hstays
  · rw [Ignorer.ignores, h]

/-- Packages, one of them foreign. -/
def packageFiles : FileSystem :=
  ⟨[(["w"], .directory), (["w", "packages"], .directory),
    (["w", "packages", "b.css"], .file (.text "a \x7b\x7d") 0),
    (["w", "packages", "vendor"], .directory),
    (["w", "packages", "vendor", "a.css"], .file (.text "a \x7bcolor: red\x7d") 0)], ["w"], 0, []⟩

def packageOptions (entries patterns : List String) : Options :=
  { files := some entries, globCwd := some "packages", ignorePatterns := patterns }

/-- A pattern without a directory leaves out every package. -/
theorem patternsDecide_all :
    ∃ l s, make (packageOptions ["**/*.css"] ["/vendor", "b.css"]) Registry.empty packageFiles =
        .ok (l, s) ∧
      (l.lint s).1 = .error .allFilesIgnored := by
  have hfacts : (make (packageOptions ["**/*.css"] ["/vendor", "b.css"]) Registry.empty
      packageFiles).toOption.any (fun (l, s) => decide (l.options.files.isSome ∧
        l.options.code = none ∧
        Discovery.run (l.opened s).files (l.options.files.getD []) l.globDir
          l.options.keepExcluded = .ok ⟨["/w/packages/b.css", "/w/packages/vendor/a.css"],
            ["**/*.css", "!**/node_modules/**"]⟩ ∧
        l.inputs (l.opened s) = [] ∧
        (l.allowsEmptyInput (l.opened s)).1 = .ok false)) = true := by
    decide +kernel
  obtain ⟨⟨l, s⟩, hmade, hfacts⟩ := (Option.any_eq_true _ _).1 hfacts
  obtain ⟨hfiles, hcode, hfound, hinputs, hempty⟩ := of_decide_eq_true hfacts
  exact ⟨l, s, eq_ok_of_toOption hmade,
    (patternsDecide hfiles hcode hfound).nothing hinputs (by decide) hempty⟩

/-- A file that no pattern leaves out in the directory of the globs is left out in its turn. -/
theorem patternsDecide_twice :
    ∃ l s, make (packageOptions ["vendor/*.css"] ["/packages/vendor"]) Registry.empty
        packageFiles = .ok (l, s) ∧
      Discovery.run (l.opened s).files ["vendor/*.css"] l.globDir l.options.keepExcluded =
        .ok ⟨["/w/packages/vendor/a.css"], ["vendor/*.css", "!**/node_modules/**"]⟩ ∧
      l.ignorer.ignoresUnder "/w/packages/vendor/a.css" l.globDir = false ∧
      ∃ a, (l.lint s).1 = .ok a ∧
        a.results.map (fun r => (r.source, r.ignored)) =
          [(some "/w/packages/vendor/a.css", true)] := by
  have hfacts : (make (packageOptions ["vendor/*.css"] ["/packages/vendor"]) Registry.empty
      packageFiles).toOption.any (fun (l, s) => decide (
        Discovery.run (l.opened s).files ["vendor/*.css"] l.globDir l.options.keepExcluded =
          .ok ⟨["/w/packages/vendor/a.css"], ["vendor/*.css", "!**/node_modules/**"]⟩ ∧
        l.ignorer.ignoresUnder "/w/packages/vendor/a.css" l.globDir = false ∧
        ((l.lint s).1.toOption.any fun a => a.results.map (fun r => (r.source, r.ignored)) ==
          [(some "/w/packages/vendor/a.css", true)]) = true)) = true := by
    decide +kernel
  obtain ⟨⟨l, s⟩, hmade, hfacts⟩ := (Option.any_eq_true _ _).1 hfacts
  obtain ⟨hfound, hstays, hrun⟩ := of_decide_eq_true hfacts
  obtain ⟨a, ha, hresults⟩ := (Option.any_eq_true _ _).1 hrun
  exact ⟨l, s, eq_ok_of_toOption hmade, hfound, hstays, a, eq_ok_of_toOption ha,
    eq_of_beq hresults⟩

end Linter

end StyleAudit
