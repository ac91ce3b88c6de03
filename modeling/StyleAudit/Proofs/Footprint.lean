import StyleAudit.Proofs.WriteBack

/-!
Which files a run can touch.

A run changes the files of inputs to which it gives a new text, and the file of its cache. A run
that uses its cache also writes the draft of the cache file: a file beside it, whatever was there
before.
-/

namespace StyleAudit

open FileSystem (AgreeOutside KeepsDirectories)

namespace FileSystem

variable {a b fs : FileSystem} {names : List String}

/-- A change of what files hold leaves the directories. -/
theorem AgreeOutside.keepsDirectories {D : Set (List String)} (h : AgreeOutside D a b) :
    KeepsDirectories a b :=
  ⟨h.home.symm, h.locked.symm,
    fun hdir => kind_eq_directory.1 ((h.kind _).symm.trans (kind_eq_directory.2 hdir))⟩

/-- What is erased was no way to anywhere. -/
theorem keepsDirectories_of_erase (fs : FileSystem) (names : List String) :
    KeepsDirectories (fs.erase names) fs :=
  ⟨rfl, rfl, get?_erase_of_some⟩

/-- A path is read from the place that it leads to. -/
theorem toOption_read {path : String} (h : fs.locate path = .ok names) :
    (fs.read path).toOption = fs.contentAt? names := by
  rw [read, stat, h, contentAt?]
  cases hget : fs.get? names with
  | none => simp [bind, Except.bind, hget, Except.toOption]
  | some e => cases e <;> simp [bind, Except.bind, hget, Except.toOption]

end FileSystem

namespace Linter

variable {l : Linter} {s t : Session} {path : String} {names : List String}

/-- When a run opens, it has the directories that there were. -/
theorem keepsDirectories_opened (l : Linter) (s : Session) :
    KeepsDirectories s.files (l.opened s).files ∧ KeepsDirectories (l.opened s).files s.files := by
  have htick := AgreeOutside.tick s.files
  rcases l.files_opened s with heq | ⟨gone, -, hgone, heq⟩
  · rw [heq]
    exact ⟨htick.keepsDirectories, htick.symm.keepsDirectories⟩
  · rw [heq]
    exact ⟨htick.keepsDirectories.trans (.erase hgone),
      (FileSystem.keepsDirectories_of_erase _ _).trans htick.symm.keepsDirectories⟩

theorem agreeOutside_linted (hproper : s.files.Proper) :
    (l.opened s).files.AgreeOutside ((l.opened s).files.placesOf (l.inputs (l.opened s)))
      (l.linted s).files := by
  have hpaths := (inputs_spec (l := l) (l.proper_opened hproper)).1
  exact (lintEach_frame hpaths).files.mono
    (FileSystem.placesOf_mono _ (gather_subset l.rewriting_subset _ _))

/-- A run that opens may remove its cache file, and nothing else. -/
theorem locate_of_opened (h : (l.opened s).files.contentAt? names ≠ s.files.contentAt? names) :
    s.files.locate s.cache.file = .ok names := by
  rcases l.files_opened s with heq | ⟨gone, hgone, -, heq⟩
  · exact absurd (congrArg (fun fs => fs.contentAt? names) heq) h
  · obtain rfl | hne := eq_or_ne names gone
    · exact ((AgreeOutside.tick _).locate _).trans hgone
    · refine absurd ?_ h
      rw [heq, FileSystem.contentAt?, FileSystem.get?_erase_of_ne hne]
      rfl

/-- What an input holds when the run has opened, it held before. -/
theorem read_of_opened {content : Content} (h : (l.opened s).files.read path = .ok content) :
    s.files.read path = .ok content := by
  obtain ⟨names, modified, hplace, hget⟩ := FileSystem.read_eq_ok h
  have hbefore : s.files.get? names = some (.file content modified) := by
    rcases l.files_opened s with heq | ⟨gone, -, -, heq⟩
    · rw [heq] at hget
      exact hget
    · rw [heq] at hget
      exact FileSystem.get?_erase_of_some hget
  exact FileSystem.read_of_get? ((l.keepsDirectories_opened s).2.locate hplace) hbefore

/-- Whether an input of a run is fixed to a text other than the one that it held. -/
def Rewrites (l : Linter) (s : Session) (path : String) : Prop :=
  ∃ t o text fixed, l.TurnsIn s path t ∧ (l.lintInput (.ofFile path l.usesCache) t).1 = .ok o ∧
    s.files.readText path = .ok text ∧ o.output = some fixed ∧ text ≠ fixed

/-- The turn of a path that leaves another text there has fixed it. -/
theorem rewrites_of_turn {u : Session} {x : Except LintError LintResult}
    (hturns : l.TurnsIn s path t) (hturn : l.Turn path t x u)
    (hread : (l.opened s).files.read path = t.files.read path)
    (hchanged : u.files.read path ≠ t.files.read path) : l.Rewrites s path := by
  cases hturn with
  | failed heq _ _ => exact absurd (by rw [heq]) hchanged
  | skipped heq _ => exact absurd (by rw [heq]) hchanged
  | hit _ _ _ heq _ => exact absurd (by rw [heq]) hchanged
  | @checked r text o _ hready hcheck hlinted hwritten _ _ _ =>
      cases hfixed : rewritten? o with
      | none => exact absurd (by rw [hwritten.eq_of_kept hfixed]) hchanged
      | some fixed =>
          obtain ⟨-, houtput, linted, hown, hne⟩ := rewritten?_eq_some hfixed
          obtain ⟨_, _, own, -, hsheet, rfl⟩ := checkInput_eq_ok hcheck
          obtain ⟨-, rfl⟩ := sheetOf_eq_ok hsheet
          obtain rfl := Option.some.inj hown
          have hbefore := read_of_opened
            (hread.trans (FileSystem.read_of_readText hready.readText))
          refine ⟨t, _, own, fixed, hturns, hlinted, ?_, houtput, hne⟩
          rw [FileSystem.readText, hbefore]
          rfl

/-- A place whose file changes while the inputs have their turns is that of a fixed input. -/
theorem rewrites_of_linted (hproper : s.files.Proper)
    (hchanged : (l.linted s).files.contentAt? names ≠ (l.opened s).files.contentAt? names) :
    ∃ path, l.Rewrites s path ∧ s.files.locate path = .ok names := by
  have hframe := l.agreeOutside_linted hproper
  have hplace : names ∈ (l.opened s).files.placesOf (l.inputs (l.opened s)) := by
    by_contra hnot
    exact hchanged (by rw [FileSystem.contentAt?, FileSystem.contentAt?, hframe.get hnot])
  obtain ⟨path, hpath, hlocate⟩ := hplace
  obtain ⟨t, u, x, hturns, hturn, hbefore, hafter⟩ := exists_turn hproper hpath
  refine ⟨path, rewrites_of_turn hturns hturn hbefore fun heq => hchanged ?_, ?_⟩
  · rw [← FileSystem.toOption_read hlocate, ← FileSystem.toOption_read
      ((hframe.locate path).symm.trans hlocate), ← hafter, heq, hbefore]
  · exact (l.keepsDirectories_opened s).2.locate hlocate

/-- A run that is not of files changes no file. -/
theorem files_lint (h : ¬(l.options.files.isSome = true ∧ l.options.code = none)) (s : Session) :
    (l.lint s).2.files = s.files.tick := by
  rw [lint]
  split
  case h_1 hfiles hcode => exact absurd ⟨by rw [hfiles]; rfl, hcode⟩ h
  case h_2 code _ _ =>
      obtain ⟨m, notices, c, htext, -⟩ := l.session_lintText code { s with files := s.files.tick }
      rw [htext]
  case h_3 => rfl

/-- What a run does to the files once all inputs have had their turns. -/
theorem lint_frame (hfiles : l.options.files.isSome) (hcode : l.options.code = none)
    (s : Session) :
    KeepsDirectories (l.linted s).files (l.lint s).2.files ∧ ∀ names,
      (l.usesCache = true → (l.lint s).2.files.locate s.cache.draftFile ≠ .ok names) →
      (l.usesCache = true → (l.lint s).2.files.locate s.cache.file ≠ .ok names) →
      (l.linted s).files.StaysAt (l.lint s).2.files names := by
  obtain ⟨m, notices, ⟨e, hlint⟩ | ⟨results, -, hlint⟩⟩ := lint_cases hfiles hcode s
  · rw [hlint]
    exact ⟨.refl _, fun names _ _ => .refl _ names⟩
  · obtain ⟨hkeeps, hstays⟩ :=
      l.saveCache_frame { l.linted s with memo := m, notices := notices }
    rw [hlint]
    refine ⟨hkeeps, fun names hdraft hfile => hstays names (fun huse => ?_) fun huse => ?_⟩
    · rw [Cache.draftFile, cacheFile_linted]
      exact hdraft huse
    · rw [cacheFile_linted]
      exact hfile huse

/-- A run takes no directory away. -/
theorem keepsDirectories_lint (l : Linter) (hproper : s.files.Proper) :
    KeepsDirectories s.files (l.lint s).2.files := by
  by_cases hrun : l.options.files.isSome = true ∧ l.options.code = none
  · have hlinted := (l.agreeOutside_linted hproper).keepsDirectories
    exact ((l.keepsDirectories_opened s).1.trans hlinted).trans (lint_frame hrun.1 hrun.2 s).1
  · rw [files_lint hrun]
    exact (AgreeOutside.tick _).keepsDirectories

/--
A file that a run changes, makes or removes is that of an input that is fixed to another text, or
the cache file, or, if the cache is used, the draft of the cache file.
-/
theorem changed_lint (hproper : s.files.Proper)
    (hchanged : (l.lint s).2.files.contentAt? names ≠ s.files.contentAt? names) :
    (∃ path, l.Rewrites s path ∧ s.files.locate path = .ok names) ∨
      (l.lint s).2.files.locate s.cache.file = .ok names ∨
      l.usesCache = true ∧ (l.lint s).2.files.locate s.cache.draftFile = .ok names := by
  by_cases hrun : l.options.files.isSome = true ∧ l.options.code = none
  · by_cases hopened : (l.opened s).files.contentAt? names = s.files.contentAt? names
    · by_cases hlinted : (l.linted s).files.contentAt? names = (l.opened s).files.contentAt? names
      · by_contra hnone
        obtain ⟨-, hfile, hdraft⟩ : _ ∧ _ ∧ _ := by simpa only [not_or, not_and] using hnone
        apply hchanged
        rw [((lint_frame hrun.1 hrun.2 s).2 names hdraft fun _ => hfile).contentAt?, hlinted,
          hopened]
      · exact .inl (rewrites_of_linted hproper hlinted)
    · exact .inr (.inl ((l.keepsDirectories_lint hproper).locate (locate_of_opened hopened)))
  · exact absurd (congrArg (fun fs => fs.contentAt? names) (files_lint hrun s)) hchanged

/-- The cache of a run is kept where its options say. -/
theorem file_openCache (o : Options) (fs : FileSystem) (cwd : String) :
    (openCache o fs cwd).1.file = Cache.locationIn fs cwd o.cacheLocation := by
  rw [openCache]
  split
  case isTrue =>
      split
      case h_1 cache hload =>
          rcases Cache.load_eq_ok hload with ⟨-, rfl⟩ | ⟨-, _, _, -, -, rfl⟩
          · rfl
          · rfl
      case h_2 => rfl
  case isFalse => rfl

/-- The sessions to which a linter comes from one: it runs, it lints single inputs, and in between
the files may become any others. -/
inductive Serves (l : Linter) (s : Session) : Session → Prop
  | refl : Serves l s s
  | edit {t : Session} (h : Serves l s t) (fs : FileSystem) : Serves l s { t with files := fs }
  | input {t : Session} (h : Serves l s t) (i : LintInput) : Serves l s (l.lintInput i t).2
  | run {t : Session} (h : Serves l s t) : Serves l s (l.lint t).2

/-- However long a linter is in use, its cache is kept in the same file. -/
theorem Serves.cacheFile (h : l.Serves s t) : t.cache.file = s.cache.file := by
  induction h with
  | refl => rfl
  | edit _ fs ih => exact ih
  | @input t _ i ih =>
      obtain ⟨m, notices, c, hsession, hfile⟩ := l.session_lintInput i t
      rw [hsession]
      exact hfile.trans ih
  | run _ ih => exact (l.cacheFile_run _).trans ih

/--
A run touches only its own files, be it the first of its linter or a later one. Whatever its
options, and however it ends, a file that it makes, changes or removes is that of an input whose
fixed text is another than the one that it held, or it is the cache file that the options name. A
run that uses its cache has one more file of its own: the draft of the cache file, which has the
name of the cache file with another extension.
-/
theorem footprint {o : Options} {registry : Registry} {fs : FileSystem}
    (hmade : make o registry fs = .ok (l, s)) (hserves : l.Serves s t) (hproper : t.files.Proper)
    (hchanged : (l.lint t).2.files.contentAt? names ≠ t.files.contentAt? names) :
    (∃ path, l.Rewrites t path ∧ t.files.locate path = .ok names) ∨
      (l.lint t).2.files.locate (Cache.locationIn fs (cwdOf o fs) o.cacheLocation) = .ok names ∨
      l.usesCache = true ∧ (l.lint t).2.files.locate
        (Path.withExtension (Cache.locationIn fs (cwdOf o fs) o.cacheLocation) "tmp") =
          .ok names := by
  obtain ⟨-, -, -, -, -, hcache⟩ := make_spec hmade
  have hfile : t.cache.file = Cache.locationIn fs (cwdOf o fs) o.cacheLocation := by
    rw [hserves.cacheFile, hcache, file_openCache]
  rw [← hfile]
  exact changed_lint hproper hchanged

/-- A run over a red sheet changes the sheet, which is fixed. -/
theorem footprint_red :
    ∃ l s, make (deskOptions ["red.css"]) paintRegistry paintFiles = .ok (l, s) ∧
      l.Serves s s ∧ s.files.Proper ∧
      (l.lint s).2.files.contentAt? ["w", "red.css"] ≠ s.files.contentAt? ["w", "red.css"] ∧
      ((∃ path, l.Rewrites s path ∧ s.files.locate path = .ok ["w", "red.css"]) ∨
        (l.lint s).2.files.locate (Cache.locationIn paintFiles
          (cwdOf (deskOptions ["red.css"]) paintFiles) none) = .ok ["w", "red.css"] ∨
        l.usesCache = true ∧ (l.lint s).2.files.locate (Path.withExtension
          (Cache.locationIn paintFiles (cwdOf (deskOptions ["red.css"]) paintFiles) none)
            "tmp") = .ok ["w", "red.css"]) := by
  have hfacts : (make (deskOptions ["red.css"]) paintRegistry paintFiles).toOption.any
      (fun (l, s) => decide (s.files.Proper ∧
        (l.lint s).2.files.contentAt? ["w", "red.css"] ≠
          s.files.contentAt? ["w", "red.css"])) = true := by
    decide +kernel
  obtain ⟨⟨l, s⟩, hmade, hfacts⟩ := (Option.any_eq_true _ _).1 hfacts
  obtain ⟨hproper, hchanged⟩ := of_decide_eq_true hfacts
  have hmade := eq_ok_of_toOption hmade
  exact ⟨l, s, hmade, .refl, hproper, hchanged, footprint hmade .refl hproper hchanged⟩

end Linter

/-- The draft of the cache file has the name of a file that was there before. -/
def takenFiles : FileSystem :=
  paintFiles.set ["w", ".sheetlintcache.tmp"] (.file (.text "mine") 0)

/-- A file beside the cache file is gone after a run of which it is no input. -/
theorem Linter.sibling_removed :
    ∃ l s, make (deskOptions ["green.css"]) paintRegistry takenFiles = .ok (l, s) ∧
      takenFiles.Proper ∧ l.inputs (l.opened s) = ["/w/green.css"] ∧
      Cache.locationIn takenFiles (cwdOf (deskOptions ["green.css"]) takenFiles) none =
        "/w/.sheetlintcache" ∧
      (∃ a, (l.lint s).1 = .ok a ∧ a.errored = false) ∧
      takenFiles.contentAt? ["w", ".sheetlintcache.tmp"] = some (.text "mine") ∧
      (l.lint s).2.files.contentAt? ["w", ".sheetlintcache.tmp"] = none := by
  have hfacts : (make (deskOptions ["green.css"]) paintRegistry takenFiles).toOption.any
      (fun (l, s) => decide (takenFiles.Proper ∧ l.inputs (l.opened s) = ["/w/green.css"] ∧
        Cache.locationIn takenFiles (cwdOf (deskOptions ["green.css"]) takenFiles) none =
          "/w/.sheetlintcache" ∧
        ((l.lint s).1.toOption.any fun a => !a.errored) = true ∧
        takenFiles.contentAt? ["w", ".sheetlintcache.tmp"] = some (.text "mine") ∧
        (l.lint s).2.files.contentAt? ["w", ".sheetlintcache.tmp"] = none)) = true := by
    decide +kernel
  obtain ⟨⟨l, s⟩, hmade, hfacts⟩ := (Option.any_eq_true _ _).1 hfacts
  obtain ⟨hproper, hinputs, hfile, hrun, hbefore, hafter⟩ := of_decide_eq_true hfacts
  obtain ⟨a, ha, hclean⟩ := (Option.any_eq_true _ _).1 hrun
  exact ⟨l, s, eq_ok_of_toOption hmade, hproper, hinputs, hfile,
    ⟨a, eq_ok_of_toOption ha, by simpa using hclean⟩, hbefore, hafter⟩

end StyleAudit
